import MarketBlocks.BackTesting.IteratorCache

/-!
# Look-ahead of the candle query

A candle that starts at or after the data time belongs to the future. `get_ohlcv` excludes
it from the newest window by the comparison of `targetTime + interval` with the time of the
candle in force. When the window is cut off at the first candle of the series, that sum
lies after the data time, and the window takes in the candle at the data time.
-/

namespace MarketBlocks

open Library

namespace BackTestingData

/-! ## Only candles before the iterator are read -/

variable {data : List OhlcvData} {targetTime : ℤ} {bound start stop : ℕ}

/-- Stepping back does not go forward. -/
theorem stepBack_le (h : stepBack data targetTime stop = .ok start) : start ≤ stop := by
  induction stop with
  | zero =>
    rw [stepBack] at h
    split at h
    · cases h
    · cases h
      exact le_rfl
  | succ stop ih =>
    rw [stepBack] at h
    split at h
    · cases h
    · split at h
      · exact (ih h).trans (Nat.le_succ stop)
      · cases h
        exact le_rfl

/-- Stepping back from a candle reads none behind it. -/
theorem stepBack_take (h : stop < bound) :
    stepBack (data.take bound) targetTime stop = stepBack data targetTime stop := by
  induction stop with
  | zero =>
    cases data with
    | nil => simp
    | cons front rest =>
      obtain ⟨k, rfl⟩ : ∃ k, bound = k + 1 := ⟨bound - 1, by omega⟩
      rfl
  | succ stop ih => rw [stepBack, stepBack, List.getElem?_take_of_lt h, ih (by omega)]

/-- Merging a range reads no candle behind it. -/
theorem mergeOhlcv_take (hstart : start < bound) (hstop : stop ≤ bound) :
    mergeOhlcv (data.take bound) start stop targetTime = mergeOhlcv data start stop targetTime := by
  rw [mergeOhlcv, mergeOhlcv, List.getElem?_take_of_lt hstart, List.take_take, Nat.min_eq_left hstop]

/-- Every round reads only candles up to the one it starts from. -/
theorem ohlcvLoop_take {startTime interval time : ℤ} {remaining : ℕ} {merged : List OhlcvData}
    (h : stop < bound) :
    ohlcvLoop (data.take bound) startTime interval remaining time stop merged =
      ohlcvLoop data startTime interval remaining time stop merged := by
  induction remaining generalizing time stop merged with
  | zero => rfl
  | succ remaining ih =>
    rw [ohlcvLoop, ohlcvLoop, List.getElem?_take_of_lt h, stepBack_take h]
    cases hlast : data[stop]? with
    | none => rfl
    | some last =>
      cases hback : stepBack data (max (time - interval) startTime) stop with
      | error fault => rfl
      | ok start =>
        have hle := stepBack_le hback
        have hstop : (if max (time - interval) startTime + interval > last.timeStamp then stop + 1
            else stop) ≤ bound := by
          split <;> omega
        simp only [bind, Except.bind]
        rw [mergeOhlcv_take (by omega) hstop]
        cases mergeOhlcv data start (if max (time - interval) startTime + interval > last.timeStamp
            then stop + 1 else stop) (max (time - interval) startTime) with
        | error fault => rfl
        | ok candle => simp only [ih (by omega : start < bound)]

/-! ## The reply of a strictly increasing series -/

/-- What `get_ohlcv` replies without a cache. -/
def candleReply (data : List OhlcvData) (time interval count : ℤ) : Except Fault (List OhlcvData) :=
  ohlcvFrom data (freshIterator data time) time interval count

/-- The candles of a series, in strictly increasing order of time. -/
def Increasing (data : List OhlcvData) : Prop := data.Pairwise (·.timeStamp < ·.timeStamp)

/-- Increasing times are in order. -/
theorem Increasing.sorted (h : Increasing data) : data.Pairwise (·.timeStamp ≤ ·.timeStamp) :=
  List.Pairwise.imp (fun hlt => hlt.le) h

variable {time interval count : ℤ} {front : OhlcvData}

/-- After the first candle the lookup finds the candle in force. -/
theorem freshIterator_eq (hsorted : data.Pairwise (·.timeStamp ≤ ·.timeStamp))
    (hpos : 0 < candlesBefore time data) : freshIterator data time = some (inForce time data) := by
  have hlength : 0 < data.length := hpos.trans_le countBelow_le_length
  have hfront : data.head? = some data[0] := by rw [List.head?_eq_getElem?, List.getElem?_eq_getElem]
  have hback : data.getLast? = some data[data.length - 1] := by
    rw [List.getLast?_eq_getElem?, List.getElem?_eq_getElem]
  have hbefore : data[0].timeStamp < time :=
    key_lt_of_lt_countBelow (List.getElem?_eq_getElem hlength) hpos
  rw [freshIterator, hfront, hback]
  simp only [not_lt.mpr hbefore.le, if_false]
  split
  · next hafter =>
    -- every candle lies before the data time
    have hall : candlesBefore time data = data.length := by
      refine le_antisymm countBelow_le_length (not_lt.mp fun hlt => ?_)
      have hindex : countBelow OhlcvData.timeStamp time data ≤ data.length - 1 := by
        change candlesBefore time data ≤ data.length - 1
        omega
      have hle := le_key_of_countBelow_le hsorted
        (List.getElem?_eq_getElem (by omega : data.length - 1 < data.length)) hindex
      exact absurd hle (not_le.mpr hafter)
    rw [inForce, hall, List.getElem?_eq_none le_rfl]
    rfl
  · rfl

/-- A round that starts at a candle of the data time is the round that starts before it, when
its window is not cut off. -/
private theorem ohlcvLoop_at_time {remaining : ℕ} (hinterval : 0 < interval)
    (hpos : 0 < candlesBefore time data) {candle : OhlcvData}
    (hcandle : data[candlesBefore time data]? = some candle) (htime : candle.timeStamp = time)
    (hroom : front.timeStamp + interval ≤ time) :
    ohlcvLoop data front.timeStamp interval remaining time (candlesBefore time data) [] =
      ohlcvLoop data front.timeStamp interval remaining time (candlesBefore time data - 1) [] := by
  cases remaining with
  | zero => rfl
  | succ remaining =>
    obtain ⟨before, hbefore⟩ : ∃ before, candlesBefore time data = before + 1 :=
      ⟨candlesBefore time data - 1, by omega⟩
    have hlength : before < data.length := by
      have hle : candlesBefore time data ≤ data.length := countBelow_le_length
      omega
    have hprevious := List.getElem?_eq_getElem hlength
    have hlt : data[before].timeStamp < time :=
      key_lt_of_lt_countBelow hprevious (by change before < candlesBefore time data; omega)
    have htarget : max (time - interval) front.timeStamp = time - interval := max_eq_left (by omega)
    have hback : stepBack data (time - interval) (before + 1) =
        stepBack data (time - interval) before := by
      rw [stepBack, ← hbefore, hcandle]
      simp only [htime]
      rw [if_pos (by omega)]
    have hstop : ¬ time > candle.timeStamp := by omega
    have hnext : time > data[before].timeStamp := hlt
    rw [hbefore] at hcandle ⊢
    rw [ohlcvLoop, ohlcvLoop, htarget, Nat.add_sub_cancel, hcandle, hprevious, hback]
    simp only [sub_add_cancel, if_neg hstop, if_pos hnext]

/-- When the newest window is not cut off, the reply is one of the candles before the data time. -/
theorem candleReply_of_room (hsorted : data.Pairwise (·.timeStamp ≤ ·.timeStamp))
    (hinterval : 0 < interval) (hcount : 0 ≤ count)
    (hfront : (data.filter (·.timeStamp < time)).head? = some front)
    (hroom : front.timeStamp + interval ≤ time) :
    candleReply data time interval count =
      ohlcvLoop (data.filter (·.timeStamp < time)) front.timeStamp interval count.toNat time
        ((data.filter (·.timeStamp < time)).length - 1) [] := by
  have htake : data.filter (·.timeStamp < time) = data.take (candlesBefore time data) :=
    (take_countBelow hsorted).symm
  have hle : candlesBefore time data ≤ data.length := countBelow_le_length
  rw [htake] at hfront
  have hpos : 0 < candlesBefore time data := by
    by_contra hzero
    rw [Nat.eq_zero_of_not_pos hzero] at hfront
    cases hfront
  have hhead : data.head? = some front := by
    rwa [List.head?_take, if_neg (by omega)] at hfront
  have hlength : (data.take (candlesBefore time data)).length = candlesBefore time data := by
    rw [List.length_take, Nat.min_eq_left hle]
  have hnew : ¬ (inForce time data = 0 ∧ time = front.timeStamp) := by omega
  rw [htake, hlength, ohlcvLoop_take (by omega), candleReply, freshIterator_eq hsorted hpos]
  simp only [ohlcvFrom, hhead, if_neg hnew, if_neg (not_lt.mpr hcount)]
  by_cases hexact : (data[candlesBefore time data]?).map OhlcvData.timeStamp = some time
  · obtain ⟨candle, hcandle, htime⟩ := Option.map_eq_some_iff.mp hexact
    rw [inForce, if_pos hexact]
    exact ohlcvLoop_at_time hinterval hpos hcandle htime hroom
  · rw [inForce, if_neg hexact]

/-- Without a candle before the data time there is nothing to reply. -/
theorem candleReply_of_none_before (hsorted : data.Pairwise (·.timeStamp ≤ ·.timeStamp))
    (hnone : data.filter (·.timeStamp < time) = []) :
    candleReply data time interval count = .ok [] := by
  cases data with
  | nil => rfl
  | cons front rest =>
    have hfirst : time ≤ front.timeStamp := by
      have hmem := List.filter_eq_nil_iff.mp hnone front List.mem_cons_self
      simpa using hmem
    have hzero : candlesBefore time (front :: rest) = 0 := countBelow_cons_of_le hfirst
    have hindex : inForce time (front :: rest) = 0 := by
      have hle := inForce_le time (front :: rest)
      omega
    have hlast : front.timeStamp ≤ ((front :: rest).getLast (List.cons_ne_nil _ _)).timeStamp := by
      rcases List.mem_cons.mp (List.getLast_mem (List.cons_ne_nil front rest)) with heq | hmem
      · rw [heq]
      · exact (List.pairwise_cons.mp hsorted).1 _ hmem
    rw [candleReply, freshIterator, List.getLast?_eq_getLast_of_ne_nil (List.cons_ne_nil _ _), hindex]
    simp only [List.head?_cons]
    rcases hfirst.lt_or_eq with hlt | heq
    · rw [if_pos hlt]
      rfl
    · rw [if_neg (by omega), if_neg (by omega)]
      simp only [ohlcvFrom, List.head?_cons]
      rw [if_pos ⟨trivial, heq⟩]

/-- A count of zero asks for nothing. -/
theorem candleReply_zero : candleReply data time interval 0 = .ok [] := by
  unfold candleReply ohlcvFrom
  split
  · split
    · rfl
    · rfl
  · rfl

/-! ## A window that is cut off -/

/-- Stepping back to the time of the first candle reaches it. -/
theorem stepBack_first (hincreasing : Increasing (front :: data)) (hstop : stop ≤ data.length) :
    stepBack (front :: data) front.timeStamp stop = .ok 0 := by
  induction stop with
  | zero => rfl
  | succ stop ih =>
    have hlt : stop < data.length := by omega
    have hcandle : (front :: data)[stop + 1]? = some data[stop] := by
      rw [List.getElem?_cons_succ, List.getElem?_eq_getElem hlt]
    have hafter : data[stop].timeStamp > front.timeStamp :=
      (List.pairwise_cons.mp hincreasing).1 _ (List.getElem_mem hlt)
    rw [stepBack, hcandle]
    simp only [if_pos hafter]
    exact ih (by omega)

/-- A newest window that reaches back past the first candle takes in the candle at the data time. -/
theorem candleReply_of_cut {rest : List OhlcvData} {candle : OhlcvData}
    (hincreasing : Increasing (front :: rest ++ [candle])) (htime : candle.timeStamp = time)
    (hcount : 0 < count) (hcut : time < front.timeStamp + interval) :
    candleReply (front :: rest ++ [candle]) time interval count =
      .ok [mergeStep (rest.foldl mergeStep { front with timeStamp := front.timeStamp }) candle] := by
  have hbefore : ∀ entry ∈ front :: rest, entry.timeStamp < time := by
    intro entry hentry
    exact htime ▸ (List.pairwise_append.mp hincreasing).2.2 entry hentry candle List.mem_cons_self
  have hindex : candlesBefore time (front :: rest ++ [candle]) = rest.length + 1 := by
    rw [candlesBefore, countBelow_append hbefore, countBelow_cons_of_le htime.ge]
    rfl
  have hcandle : (front :: rest ++ [candle])[rest.length + 1]? = some candle := by simp
  have hforce : inForce time (front :: rest ++ [candle]) = rest.length + 1 := by
    rw [inForce, hindex, hcandle, if_pos (by rw [← htime]; rfl)]
  have hback : stepBack (front :: rest ++ [candle]) front.timeStamp (rest.length + 1) = .ok 0 :=
    stepBack_first hincreasing (by simp)
  have htarget : max (time - interval) front.timeStamp = front.timeStamp := max_eq_right (by omega)
  have hstop : front.timeStamp + interval > candle.timeStamp := by omega
  have hmerge : mergeOhlcv (front :: rest ++ [candle]) 0 (rest.length + 1 + 1) front.timeStamp =
      .ok (mergeStep (rest.foldl mergeStep { front with timeStamp := front.timeStamp }) candle) := by
    have hall : (front :: rest ++ [candle]).take (rest.length + 1 + 1) = front :: rest ++ [candle] :=
      List.take_of_length_le (by simp)
    rw [mergeOhlcv, hall]
    simp [List.foldl_append]
  obtain ⟨remaining, hremaining⟩ : ∃ remaining, count.toNat = remaining + 1 :=
    ⟨count.toNat - 1, by omega⟩
  rw [candleReply, freshIterator_eq hincreasing.sorted (by omega), hforce]
  simp only [ohlcvFrom, List.cons_append, List.head?_cons]
  rw [if_neg (by omega), if_neg (by omega), hremaining, ohlcvLoop, htarget]
  rw [List.cons_append] at hcandle hback hmerge
  rw [hcandle, hback]
  simp only [bind, Except.bind, if_pos hstop, hmerge, and_self, if_true, List.nil_append]

/-! ## Two runs -/

/-- A state that some sequence of calls reaches. -/
def Reachable (d : BackTestingData) : Prop :=
  ∃ tradablePairs data startTime endTime stepSize timeSteps dataSource calls, 0 < stepSize ∧
    d = run (create tradablePairs data startTime endTime stepSize timeSteps dataSource) calls

/-- In a reachable state the cached iterators point at rows. -/
theorem Reachable.cacheBounded {d : BackTestingData} (h : d.Reachable) : d.CacheBounded := by
  obtain ⟨tradablePairs, data, startTime, endTime, stepSize, timeSteps, dataSource, calls, hstep, rfl⟩ := h
  exact (cacheBounded_of_empty rfl).run hstep.le calls

/-- A reachable state replies what a fresh scan of its series replies. -/
theorem Reachable.getOhlcv_fst {d : BackTestingData} (h : d.Reachable) (pair : TradablePair)
    (interval count : ℤ) :
    (getOhlcv pair interval count d).1 = candleReply (d.series pair) d.dataTime interval count := by
  rw [getOhlcv_eq_query, (query_spec _ h.cacheBounded pair).1]
  rfl

/-- Every series is served at every data time by some reachable state. -/
theorem exists_reachable (data : List OhlcvData) (time : ℤ) :
    ∃ (d : BackTestingData) (pair : TradablePair),
      d.Reachable ∧ d.dataTime = time ∧ d.series pair = data := by
  refine ⟨create [⟨"", ""⟩] ((∅ : UnorderedMap _ _).insert ⟨"", ""⟩ data) time time 1 1 none, ⟨"", ""⟩,
    ⟨_, _, _, _, 1, _, none, [], by decide, rfl⟩, rfl, ?_⟩
  rw [series, create]
  simp only [Finmap.lookup_insert, Option.getD_some]

/-- The replies at the data time are the same on every strictly increasing series with the same
candles before it. -/
def BlindToFuture (data : List OhlcvData) (time interval count : ℤ) : Prop :=
  ∀ data', Increasing data' →
    data'.filter (·.timeStamp < time) = data.filter (·.timeStamp < time) →
    ∀ (d d' : BackTestingData) pair pair', d.Reachable → d'.Reachable → d.dataTime = time →
      d'.dataTime = time → d.series pair = data → d'.series pair' = data' →
        (getOhlcv pair interval count d).1 = (getOhlcv pair' interval count d').1

/-- Two runs agree exactly when the two fresh scans do. -/
theorem blindToFuture_iff : BlindToFuture data time interval count ↔
    ∀ data', Increasing data' →
      data'.filter (·.timeStamp < time) = data.filter (·.timeStamp < time) →
        candleReply data time interval count = candleReply data' time interval count := by
  refine forall₃_congr fun data' hincreasing hpast => ⟨fun hblind => ?_, ?_⟩
  · obtain ⟨d, pair, hreach, htime, hseries⟩ := exists_reachable data time
    obtain ⟨d', pair', hreach', htime', hseries'⟩ := exists_reachable data' time
    have hsame := hblind d d' pair pair' hreach hreach' htime htime' hseries hseries'
    rwa [hreach.getOhlcv_fst, hreach'.getOhlcv_fst, htime, htime', hseries, hseries'] at hsame
  · intro hsame d d' pair pair' hreach hreach' htime htime' hseries hseries'
    rwa [hreach.getOhlcv_fst, hreach'.getOhlcv_fst, htime, htime', hseries, hseries']

/-- A window that reaches back past the first candle shows the candle at the data time. -/
theorem not_blindToFuture_of_cut (hincreasing : Increasing data) (hcount : 0 < count)
    {rest : List OhlcvData} (hpast : data.filter (·.timeStamp < time) = front :: rest)
    (hcut : time < front.timeStamp + interval) : ¬ BlindToFuture data time interval count := by
  intro hblind
  have hbefore : ∀ entry ∈ front :: rest, entry.timeStamp < time := by
    intro entry hentry
    rw [← hpast] at hentry
    simpa using (List.mem_filter.mp hentry).2
  have hpastIncreasing : Increasing (front :: rest) := by
    rw [← hpast]
    exact List.Pairwise.filter _ hincreasing
  -- the past is continued by a candle at the data time with an arbitrary volume
  have hreply (volume : ℚ) : candleReply data time interval count =
      .ok [mergeStep (rest.foldl mergeStep { front with timeStamp := front.timeStamp })
        ⟨time, 0, 0, 0, 0, volume⟩] := by
    have hnext : Increasing (front :: rest ++ [(⟨time, 0, 0, 0, 0, volume⟩ : OhlcvData)]) := by
      refine List.pairwise_append.mpr ⟨hpastIncreasing, List.pairwise_singleton _ _, ?_⟩
      intro entry hentry candle hcandle
      rw [List.mem_singleton.mp hcandle]
      exact hbefore entry hentry
    have hsame : (front :: rest ++ [(⟨time, 0, 0, 0, 0, volume⟩ : OhlcvData)]).filter
        (·.timeStamp < time) = data.filter (·.timeStamp < time) := by
      rw [hpast, List.filter_append, List.filter_eq_self.mpr fun entry hentry => by
        simpa using hbefore entry hentry]
      simp
    rw [blindToFuture_iff.mp hblind _ hnext hsame]
    exact candleReply_of_cut hnext rfl hcount hcut
  have hvolumes := (hreply 0).symm.trans (hreply 1)
  simp [mergeStep] at hvolumes

/-- The reply of a strictly increasing series depends on the past alone exactly when nothing is
asked for, nothing is past, or the newest window begins no earlier than the series. -/
theorem getOhlcv_blindToFuture_iff (hincreasing : Increasing data) (hinterval : 0 < interval)
    (hcount : 0 ≤ count) :
    BlindToFuture data time interval count ↔
      count = 0 ∨ (∀ candle ∈ data, time ≤ candle.timeStamp) ∨
        ∃ front, data.head? = some front ∧ front.timeStamp + interval ≤ time := by
  constructor
  · intro hblind
    by_contra hnot
    push Not at hnot
    obtain ⟨hcount', ⟨candle, hcandle, hbefore⟩, hcut⟩ := hnot
    cases data with
    | nil => cases hcandle
    | cons front rest =>
      have hfirst : front.timeStamp < time := by
        rcases List.mem_cons.mp hcandle with rfl | hmem
        · exact hbefore
        · exact ((List.pairwise_cons.mp hincreasing).1 candle hmem).trans hbefore
      exact not_blindToFuture_of_cut hincreasing (by omega)
        (List.filter_cons_of_pos (by simpa using hfirst)) (hcut front rfl) hblind
  · intro hcases
    rw [blindToFuture_iff]
    intro data' hincreasing' hpast
    rcases hcases with rfl | hnone | ⟨front, hfront, hroom⟩
    · rw [candleReply_zero, candleReply_zero]
    · have hempty : data.filter (·.timeStamp < time) = [] := by
        rw [List.filter_eq_nil_iff]
        intro candle hcandle
        simpa using hnone candle hcandle
      rw [candleReply_of_none_before hincreasing.sorted hempty,
        candleReply_of_none_before hincreasing'.sorted (hpast.trans hempty)]
    · have hhead : (data.filter (·.timeStamp < time)).head? = some front := by
        cases data with
        | nil => cases hfront
        | cons first rest =>
          cases hfront
          rw [List.filter_cons_of_pos (by simpa using (by omega : front.timeStamp < time))]
          rfl
      rw [candleReply_of_room hincreasing.sorted hinterval hcount hhead hroom,
        candleReply_of_room hincreasing'.sorted hinterval hcount (hpast ▸ hhead) hroom, hpast]

/-- A window of sixty seconds at time 220 ends before the candle of that time. -/
theorem getOhlcv_blindToFuture_minute :
    BlindToFuture [⟨100, 1, 1, 1, 1, 1⟩, ⟨160, 2, 2, 2, 2, 1⟩, ⟨220, 3, 3, 3, 3, 1⟩] 220 60 1 :=
  (getOhlcv_blindToFuture_iff (by unfold Increasing; decide +kernel) (by decide) (by decide)).mpr
    (.inr (.inr ⟨_, rfl, by decide⟩))

/-- At time 160 a window of 120 seconds is cut off at the first candle, at time 100, and shows
the high, low, close and volume of the candle that has just begun. -/
theorem getOhlcv_looks_ahead :
    let pair : TradablePair := ⟨"BTC", "GBP"⟩
    let calm : List OhlcvData := [⟨100, 1, 1, 1, 1, 1⟩, ⟨160, 1, 1, 1, 1, 1⟩]
    let crash : List OhlcvData := [⟨100, 1, 1, 1, 1, 1⟩, ⟨160, 1, 2, 0, 0, 9⟩]
    let serve (data : List OhlcvData) :=
      create [pair] ((∅ : UnorderedMap _ _).insert pair data) 160 160 60 1
    calm.filter (·.timeStamp < 160) = crash.filter (·.timeStamp < 160) ∧
      (getOhlcv pair 120 1 (serve calm)).1 ≠ (getOhlcv pair 120 1 (serve crash)).1 ∧
      ¬ BlindToFuture calm 160 120 1 := by
  intro pair calm crash serve
  refine ⟨by decide +kernel, by decide +kernel, fun hblind => ?_⟩
  have hsame := hblind crash (by unfold Increasing; decide +kernel) (by decide +kernel) (serve calm)
    (serve crash) pair pair ⟨_, _, _, _, 60, _, none, [], by decide, rfl⟩
    ⟨_, _, _, _, 60, _, none, [], by decide, rfl⟩ rfl rfl rfl rfl
  revert hsame
  decide +kernel

end BackTestingData

end MarketBlocks
