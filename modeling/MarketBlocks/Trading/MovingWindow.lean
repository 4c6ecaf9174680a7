import MarketBlocks.Library.Runs
import MarketBlocks.Trading.MovingCandle

/-!
# The window of a moving candle

Every call that returns moves the window of a moving candle with the time. As long as trades have been
pushed, the first one that is kept stands at the start of the window and the others behind it in the
order of their times, so that the offset trades are never empty unless the offset is longer than the
interval. Before the first trade, and after a reset, a query reads the front of an empty deque.
-/

namespace MarketBlocks.MovingCandle

open Library

/-- A call on a moving candle. -/
inductive Operation where
  | pushTrade (trade : TradeUpdate)
  | getOhlcv (time : ℤ)
  | getQuoteVolume (time : ℤ)
  | reset
  deriving DecidableEq, Repr

/-- The time of a call; `reset` has none. -/
def Operation.time? : Operation → Option ℤ
  | .pushTrade trade => some trade.timeStamp
  | .getOhlcv time | .getQuoteVolume time => some time
  | .reset => none

/-- A trade is pushed. -/
def Operation.IsPush (operation : Operation) : Prop := ∃ trade, operation = .pushTrade trade

/-- The times of the calls, in their order. -/
def times (operations : List Operation) : List ℤ := operations.filterMap Operation.time?

/-- One call, whose answer is dropped. -/
def perform (candle : MovingCandle) : Operation → Except Fault MovingCandle
  | .pushTrade trade => candle.pushTrade trade
  | .getOhlcv time => do return (← candle.getOhlcv time).2
  | .getQuoteVolume time => do return (← candle.getQuoteVolume time).2
  | .reset => return candle.reset

/-- A run of calls, to the first one that goes wrong. -/
def performAll (candle : MovingCandle) (operations : List Operation) : Except Fault MovingCandle :=
  operations.foldlM perform candle

/-- Calls with positive times, none earlier than the one before. -/
structure InOrder (operations : List Operation) : Prop where
  positive : ∀ time ∈ times operations, 0 < time
  sorted : (times operations).Pairwise (· ≤ ·)

/-- Trades have been pushed since the candle was made or reset. -/
def Filled (operations : List Operation) : Prop := SinceLast Operation.IsPush (· = .reset) operations

/-- What a call needs of the ones before it: a query needs trades, and the candle of a query an
offset trade among them. -/
def Answerable (interval offset : ℤ) (before : List Operation) : Operation → Prop
  | .getOhlcv _ => Filled before ∧ offset ≤ interval
  | .getQuoteVolume _ => Filled before
  | .pushTrade _ | .reset => True

/-- The window at `t`, when the first trade came at `first`: the front stands at its start, the other
trades in order behind it. -/
structure Opened (interval offset first t : ℤ) (candle : MovingCandle) : Prop where
  interval_eq : candle.interval = interval
  offset_eq : candle.offset = offset
  startTime_eq : candle.startTime = max first (t - interval - offset)
  trades_eq : ∃ front rest, candle.trades = front :: rest ∧ front.timeStamp = candle.startTime ∧
    rest.Pairwise (fun earlier later => earlier.timeStamp ≤ later.timeStamp) ∧
    ∀ trade ∈ rest, candle.startTime < trade.timeStamp ∧ trade.timeStamp ≤ t

variable {interval offset first t t' : ℤ} {candle next : MovingCandle} {trade : TradeUpdate}

/-! ## Single calls -/

/-- A trade from before the window stands at its start. -/
theorem timeStamp_fillTrade {start : ℤ} (h : trade.timeStamp ≤ start) :
    (fillTrade start trade).timeStamp = start := by
  unfold fillTrade
  split
  · rfl
  · omega

/-- The start of the window moves with the time. -/
theorem moved_startTime (hstart : candle.startTime = max first (t - interval - offset))
    (hinterval : candle.interval = interval) (hoffset : candle.offset = offset) (hle : t ≤ t') :
    (if t' - candle.offset ≥ candle.startTime + candle.interval
      then t' - candle.interval - candle.offset else candle.startTime) =
        max first (t' - interval - offset) := by
  rw [hoffset, hinterval, hstart]
  split <;> omega

/-- However the trades behind the front lie, moving the window puts the last old one of them at its
start. -/
theorem updateValues_opened {front : TradeUpdate} {rest : List TradeUpdate}
    (hinterval : candle.interval = interval) (hoffset : candle.offset = offset)
    (hstart : candle.startTime = max first (t - interval - offset))
    (htrades : candle.trades = front :: rest) (hfront : front.timeStamp = candle.startTime)
    (hsorted : rest.Pairwise fun earlier later => earlier.timeStamp ≤ later.timeStamp)
    (hseen : ∀ trade ∈ rest, trade.timeStamp ≤ t') (hle : t ≤ t') :
    ∃ next, candle.updateValues t' = .ok next ∧ Opened interval offset first t' next := by
  have hmoved := moved_startTime hstart hinterval hoffset hle
  have hmono : candle.startTime ≤ max first (t' - interval - offset) := by
    rw [hstart]
    omega
  generalize hnow : max first (t' - interval - offset) = start at hmoved hmono
  have hold : ((tradesUpTo start rest).getLast?.getD front).timeStamp ≤ start := by
    cases hlast : (tradesUpTo start rest).getLast? with
    | none => exact hfront.trans_le hmono
    | some last => simpa using (List.mem_filter.mp (List.mem_of_getLast? hlast)).2
  unfold updateValues
  simp only [hmoved, htrades]
  rw [popOld_cons front hsorted]
  refine ⟨_, rfl, hinterval, hoffset, hnow.symm, _, _, rfl, timeStamp_fillTrade hold,
    hsorted.filter _, ?_⟩
  intro trade hmem
  obtain ⟨hrest, hafter⟩ := List.mem_filter.mp hmem
  exact ⟨by simpa using hafter, hseen trade hrest⟩

/-- Moving a window on goes right. -/
theorem Opened.updateValues (h : Opened interval offset first t candle) (hle : t ≤ t') :
    ∃ next, candle.updateValues t' = .ok next ∧ Opened interval offset first t' next := by
  obtain ⟨front, rest, htrades, hfront, hsorted, hrest⟩ := h.trades_eq
  exact updateValues_opened h.interval_eq h.offset_eq h.startTime_eq htrades hfront hsorted
    (fun trade hmem => (hrest trade hmem).2.trans hle) hle

/-- Pushing a trade behind the window goes right. -/
theorem Opened.pushTrade (h : Opened interval offset first t candle) (hfirst : 0 < first)
    (hle : t ≤ trade.timeStamp) :
    ∃ next, candle.pushTrade trade = .ok next ∧ Opened interval offset first trade.timeStamp next := by
  obtain ⟨front, rest, htrades, hfront, hsorted, hrest⟩ := h.trades_eq
  have hstarted : candle.startTime ≠ 0 := by
    have hstart := h.startTime_eq
    omega
  have hseen : ∀ earlier ∈ rest, earlier.timeStamp ≤ trade.timeStamp := fun earlier hmem =>
    (hrest earlier hmem).2.trans hle
  have hsorted' : (rest ++ [trade]).Pairwise fun earlier later =>
      earlier.timeStamp ≤ later.timeStamp :=
    List.pairwise_append.mpr ⟨hsorted, List.pairwise_singleton _ _, fun earlier hmem later hlater =>
      List.mem_singleton.mp hlater ▸ hseen earlier hmem⟩
  have hseen' : ∀ earlier ∈ rest ++ [trade], earlier.timeStamp ≤ trade.timeStamp := by
    intro earlier hmem
    rcases List.mem_append.mp hmem with hold | hnew
    · exact hseen earlier hold
    · exact (List.mem_singleton.mp hnew ▸ le_rfl)
  have htrades' : candle.trades ++ [trade] = front :: (rest ++ [trade]) := by rw [htrades]; rfl
  have hopened : ∃ next, MovingCandle.updateValues trade.timeStamp
      { candle with trades := candle.trades ++ [trade] } = .ok next ∧
        Opened interval offset first trade.timeStamp next :=
    updateValues_opened h.interval_eq h.offset_eq h.startTime_eq htrades' hfront hsorted' hseen' hle
  unfold MovingCandle.pushTrade
  rwa [if_neg hstarted]

/-- The first trade opens the window. -/
theorem pushTrade_opens (hinterval : 0 < interval) (hoffset : 0 ≤ offset) (trade : TradeUpdate) :
    ∃ next, (new interval offset).pushTrade trade = .ok next ∧
      Opened interval offset trade.timeStamp trade.timeStamp next := by
  unfold MovingCandle.pushTrade new
  rw [if_pos rfl]
  refine updateValues_opened (t := trade.timeStamp) rfl rfl ?_ rfl rfl List.Pairwise.nil (by simp) le_rfl
  dsimp only
  omega

/-- A window that has been moved to `t` stays there. -/
theorem Opened.updateValues_self (h : Opened interval offset first t candle) :
    candle.updateValues t = .ok candle := by
  obtain ⟨front, rest, htrades, hfront, hsorted, hrest⟩ := h.trades_eq
  have hmoved := moved_startTime h.startTime_eq h.interval_eq h.offset_eq (le_refl t)
  rw [← h.startTime_eq] at hmoved
  have hlater : tradesAfter candle.startTime rest = rest :=
    List.filter_eq_self.mpr fun trade hmem => by simpa using (hrest trade hmem).1
  have hnone : tradesUpTo candle.startTime rest = [] :=
    List.filter_eq_nil_iff.mpr fun trade hmem => by simpa using (hrest trade hmem).1
  have hkept : fillTrade candle.startTime front = front := if_neg (by omega)
  unfold MovingCandle.updateValues
  simp only [hmoved, htrades]
  rw [popOld_cons front hsorted, hlater, hnone, List.getLast?_nil, Option.getD_none]
  simp only [hkept, ← htrades]

/-- A query is answered from where it moves the window. -/
theorem getOhlcv_of_updateValues (h : candle.updateValues t = .ok next)
    (hself : next.updateValues t = .ok next) : candle.getOhlcv t = next.getOhlcv t := by
  unfold MovingCandle.getOhlcv
  rw [h, hself]

/-- A query moves the window on first. -/
theorem getQuoteVolume_of_updateValues (h : candle.updateValues t = .ok next)
    (hself : next.updateValues t = .ok next) : candle.getQuoteVolume t = next.getQuoteVolume t := by
  unfold MovingCandle.getQuoteVolume
  rw [h, hself]

/-- A window that was opened holds its front. -/
theorem Opened.trades_ne_nil (h : Opened interval offset first t candle) : candle.trades ≠ [] := by
  obtain ⟨front, rest, htrades, -⟩ := h.trades_eq
  rw [htrades]
  exact List.cons_ne_nil front rest

/-- The offset trades are trades of the window. -/
theorem mem_trades_of_mem_getOffsetTrades (h : trade ∈ candle.getOffsetTrades) :
    trade ∈ candle.trades := by
  unfold getOffsetTrades at h
  split at h
  · exact h
  · exact (List.takeWhile_sublist _).subset h

/-- The front is an offset trade as long as the cut-off is not before the start of the window. -/
theorem Opened.getOffsetTrades_ne_nil_iff (h : Opened interval offset first t candle)
    (hinterval : 0 < interval) : candle.getOffsetTrades ≠ [] ↔ offset ≤ interval := by
  obtain ⟨front, rest, htrades, hfront, -⟩ := h.trades_eq
  have hcut : front.timeStamp ≤ candle.startTime + candle.interval - candle.offset ↔
      offset ≤ interval := by
    rw [hfront, h.interval_eq, h.offset_eq]
    omega
  unfold getOffsetTrades
  rw [htrades]
  split
  · next hzero =>
    have hoffset := h.offset_eq
    simp only [ne_eq, List.cons_ne_nil, not_false_eq_true, true_iff]
    omega
  · rw [List.takeWhile_cons]
    simp only [decide_eq_true_eq, hcut]
    by_cases hle : offset ≤ interval
    · simp [hle]
    · simp [hle]

/-- At its own time a window takes its candle off the offset trades. -/
theorem Opened.getOhlcv_self (h : Opened interval offset first t candle) :
    candle.getOhlcv t = match candle.getOffsetTrades with
      | [] => .error .undefined
      | front :: later =>
        .ok (candleOf (candle.startTime - candle.offset) front (front :: later), candle) := by
  have hkept : candle.trades.isEmpty = false := by simpa using h.trades_ne_nil
  simp only [MovingCandle.getOhlcv, h.updateValues_self, bind, Except.bind, hkept, Bool.false_eq_true,
    if_false]
  cases candle.getOffsetTrades <;> rfl

/-- At its own time a window adds up what its offset trades cost. -/
theorem Opened.getQuoteVolume_self (h : Opened interval offset first t candle) :
    candle.getQuoteVolume t = .ok ((candle.getOffsetTrades.map fun trade =>
      calculateCost trade.price trade.volume).sum, candle) := by
  unfold MovingCandle.getQuoteVolume
  rw [h.updateValues_self]
  rfl

/-! ## Runs -/

/-- The candle after some calls: as new as long as it is not filled, and else open at the time of the
last of them. -/
structure Tracks (interval offset : ℤ) (operations : List Operation) (candle : MovingCandle) :
    Prop where
  filled : Filled operations → ∃ first ∈ times operations, ∃ t, (times operations).getLast? = some t ∧
    first ≤ t ∧ Opened interval offset first t candle
  empty : ¬Filled operations → candle = new interval offset

variable {before after operations : List Operation} {operation : Operation}

/-- Only a push fills an empty run, and only a reset empties it. -/
theorem filled_concat :
    Filled (before ++ [operation]) ↔ operation.IsPush ∨ (operation ≠ .reset ∧ Filled before) :=
  sinceLast_concat before operation

/-- A further call adds its time, if it has one. -/
theorem times_concat : times (before ++ [operation]) = times before ++ operation.time?.toList := by
  rw [times, List.filterMap_append]
  cases operation <;> rfl

/-- What comes before some calls is in order. -/
theorem InOrder.of_prefix (h : InOrder operations) (hsplit : operations = before ++ after) :
    InOrder before := by
  have htimes : times operations = times before ++ times after := by
    rw [hsplit]
    exact List.filterMap_append
  have hpositive := h.positive
  have hsorted := h.sorted
  rw [htimes] at hpositive hsorted
  exact ⟨fun time hmem => hpositive time (List.mem_append_left _ hmem),
    (List.pairwise_append.mp hsorted).1⟩

/-- The time of a call is positive and not before those of the calls before it. -/
theorem InOrder.of_split (h : InOrder operations) (hsplit : operations = before ++ operation :: after) :
    (∀ time ∈ times before, 0 < time) ∧
      ∀ time ∈ operation.time?, 0 < time ∧ ∀ earlier ∈ times before, earlier ≤ time := by
  have hpart := h.of_prefix (hsplit.trans (List.append_cons before operation after))
  have hpositive := hpart.positive
  have hsorted := hpart.sorted
  rw [times_concat] at hpositive hsorted
  constructor
  · intro time hmem
    exact hpositive time (List.mem_append_left _ hmem)
  · intro time htime
    have hlisted : time ∈ operation.time?.toList := by simpa using htime
    exact ⟨hpositive time (List.mem_append_right _ hlisted), fun earlier hmem =>
      (List.pairwise_append.mp hsorted).2.2 earlier hmem time hlisted⟩

/-- No call changes the interval or the offset. -/
theorem Tracks.interval_offset (h : Tracks interval offset before candle) :
    candle.interval = interval ∧ candle.offset = offset := by
  by_cases hfilled : Filled before
  · obtain ⟨first, -, t, -, -, hopened⟩ := h.filled hfilled
    exact ⟨hopened.interval_eq, hopened.offset_eq⟩
  · rw [h.empty hfilled]
    exact ⟨rfl, rfl⟩

/-- Moving a filled candle to a later time. -/
theorem Tracks.updateValues (h : Tracks interval offset before candle) (hfilled : Filled before)
    (hlast : ∀ earlier ∈ times before, earlier ≤ t') :
    ∃ first ∈ times before, first ≤ t' ∧ ∃ next, candle.updateValues t' = .ok next ∧
      Opened interval offset first t' next := by
  obtain ⟨first, hfirst, t, ht, hle, hopened⟩ := h.filled hfilled
  exact ⟨first, hfirst, hlast first hfirst, hopened.updateValues (hlast t (List.mem_of_getLast? ht))⟩

/-- A call that only moves the candle. -/
theorem Tracks.of_query {time : ℤ} (htime : operation.time? = some time) (hreset : operation ≠ .reset)
    (hfilled : Filled before) (hfirst : first ∈ times before) (hle : first ≤ time)
    (hopened : Opened interval offset first time next) :
    Tracks interval offset (before ++ [operation]) next where
  filled _ := by
    rw [times_concat, htime]
    exact ⟨first, by simp [hfirst], time, by simp, hle, hopened⟩
  empty hempty := absurd (filled_concat.mpr (.inr ⟨hreset, hfilled⟩)) hempty

/-- A push goes right. -/
theorem Tracks.pushTrade (hinterval : 0 < interval) (hoffset : 0 ≤ offset)
    (h : Tracks interval offset before candle) (hpositive : ∀ time ∈ times before, 0 < time)
    (hlast : ∀ earlier ∈ times before, earlier ≤ trade.timeStamp) :
    ∃ next, candle.pushTrade trade = .ok next ∧
      Tracks interval offset (before ++ [.pushTrade trade]) next := by
  have hfilled' : Filled (before ++ [.pushTrade trade]) := filled_concat.mpr (.inl ⟨trade, rfl⟩)
  by_cases hfilled : Filled before
  · obtain ⟨first, hfirst, t, ht, hle, hopened⟩ := h.filled hfilled
    obtain ⟨next, hnext, hopened'⟩ := hopened.pushTrade (hpositive first hfirst)
      (hlast t (List.mem_of_getLast? ht))
    refine ⟨next, hnext, fun _ => ?_, fun hempty => absurd hfilled' hempty⟩
    rw [times_concat]
    exact ⟨first, by simp [hfirst], trade.timeStamp, by simp [Operation.time?],
      hlast first hfirst, hopened'⟩
  · obtain ⟨next, hnext, hopened⟩ := pushTrade_opens hinterval hoffset trade
    rw [h.empty hfilled]
    refine ⟨next, hnext, fun _ => ?_, fun hempty => absurd hfilled' hempty⟩
    rw [times_concat]
    exact ⟨trade.timeStamp, by simp [Operation.time?], trade.timeStamp, by simp [Operation.time?],
      le_rfl, hopened⟩

/-- A candle is taken exactly of a filled window whose offset lies within its interval. -/
theorem Tracks.getOhlcv (hinterval : 0 < interval) (h : Tracks interval offset before candle) {time : ℤ}
    (hlast : ∀ earlier ∈ times before, earlier ≤ time) :
    ((∃ answer, candle.getOhlcv time = .ok answer) ↔ Filled before ∧ offset ≤ interval) ∧
      ∀ answer, candle.getOhlcv time = .ok answer →
        Tracks interval offset (before ++ [.getOhlcv time]) answer.2 := by
  by_cases hfilled : Filled before
  · obtain ⟨first, hfirst, hle, next, hnext, hopened⟩ := h.updateValues hfilled hlast
    have hquery := getOhlcv_of_updateValues hnext hopened.updateValues_self
    have hnil := hopened.getOffsetTrades_ne_nil_iff hinterval
    rw [hquery, hopened.getOhlcv_self, and_iff_right hfilled, ← hnil]
    cases next.getOffsetTrades with
    | nil => simp
    | cons front later =>
      refine ⟨by simp, fun answer hanswer => ?_⟩
      cases hanswer
      exact of_query rfl (by simp) hfilled hfirst hle hopened
  · rw [h.empty hfilled]
    have hfault : (new interval offset).getOhlcv time = .error .undefined := rfl
    simp [hfault, hfilled]

/-- A quote volume is taken exactly of a filled window. -/
theorem Tracks.getQuoteVolume (h : Tracks interval offset before candle) {time : ℤ}
    (hlast : ∀ earlier ∈ times before, earlier ≤ time) :
    ((∃ answer, candle.getQuoteVolume time = .ok answer) ↔ Filled before) ∧
      ∀ answer, candle.getQuoteVolume time = .ok answer →
        Tracks interval offset (before ++ [.getQuoteVolume time]) answer.2 := by
  by_cases hfilled : Filled before
  · obtain ⟨first, hfirst, hle, next, hnext, hopened⟩ := h.updateValues hfilled hlast
    have hquery := getQuoteVolume_of_updateValues hnext hopened.updateValues_self
    rw [hquery, hopened.getQuoteVolume_self]
    refine ⟨iff_of_true ⟨_, rfl⟩ hfilled, fun answer hanswer => ?_⟩
    cases hanswer
    exact of_query rfl (by simp) hfilled hfirst hle hopened
  · rw [h.empty hfilled]
    have hfault : (new interval offset).getQuoteVolume time = .error .undefined := rfl
    simp [hfault, hfilled]

/-- A call returns exactly when it is answerable, and what it leaves is tracked again. -/
theorem Tracks.perform (hinterval : 0 < interval) (hoffset : 0 ≤ offset)
    (h : Tracks interval offset before candle) (hpositive : ∀ time ∈ times before, 0 < time)
    (hlast : ∀ time ∈ operation.time?, ∀ earlier ∈ times before, earlier ≤ time) :
    ((∃ next, candle.perform operation = .ok next) ↔ Answerable interval offset before operation) ∧
      ∀ next, candle.perform operation = .ok next →
        Tracks interval offset (before ++ [operation]) next := by
  cases operation with
  | pushTrade trade =>
    obtain ⟨next, hnext, htracks⟩ := h.pushTrade hinterval hoffset hpositive (hlast _ rfl)
    refine ⟨iff_of_true ⟨next, hnext⟩ trivial, fun next' hnext' => ?_⟩
    rw [MovingCandle.perform, hnext] at hnext'
    cases hnext'
    exact htracks
  | getOhlcv time =>
    obtain ⟨hreturns, hkeeps⟩ := h.getOhlcv hinterval (hlast _ rfl)
    simp only [MovingCandle.perform, Answerable, ← hreturns]
    cases hanswer : candle.getOhlcv time with
    | error fault => simp [bind, Except.bind]
    | ok answer =>
      refine ⟨iff_of_true ⟨answer.2, rfl⟩ ⟨answer, rfl⟩, fun next hnext => ?_⟩
      cases hnext
      exact hkeeps answer hanswer
  | getQuoteVolume time =>
    obtain ⟨hreturns, hkeeps⟩ := h.getQuoteVolume (hlast _ rfl)
    simp only [MovingCandle.perform, Answerable, ← hreturns]
    cases hanswer : candle.getQuoteVolume time with
    | error fault => simp [bind, Except.bind]
    | ok answer =>
      refine ⟨iff_of_true ⟨answer.2, rfl⟩ ⟨answer, rfl⟩, fun next hnext => ?_⟩
      cases hnext
      exact hkeeps answer hanswer
  | reset =>
    refine ⟨iff_of_true ⟨candle.reset, rfl⟩ trivial, fun next hnext => ?_⟩
    cases hnext
    refine ⟨fun hfilled => ?_, fun _ => ?_⟩
    · rcases filled_concat.mp hfilled with ⟨_, heq⟩ | ⟨hne, -⟩
      · cases heq
      · exact absurd rfl hne
    · rw [MovingCandle.reset, h.interval_offset.1, h.interval_offset.2]
      rfl

/-- A new candle has seen no calls. -/
theorem tracks_new (interval offset : ℤ) : Tracks interval offset [] (new interval offset) where
  filled hfilled := absurd hfilled not_sinceLast_nil
  empty _ := rfl

/-- The call at a place of a run. -/
theorem tracks_step (hinterval : 0 < interval) (hoffset : 0 ≤ offset) (horder : InOrder operations)
    (hsplit : operations = before ++ operation :: after) (h : Tracks interval offset before candle) :
    ((∃ next, candle.perform operation = .ok next) ↔ Answerable interval offset before operation) ∧
      ∀ next, candle.perform operation = .ok next →
        Tracks interval offset (before ++ [operation]) next := by
  obtain ⟨hpositive, hlast⟩ := horder.of_split hsplit
  exact h.perform hinterval hoffset hpositive fun time htime => (hlast time htime).2

/-- A run that returns is tracked. -/
theorem tracks_performAll (hinterval : 0 < interval) (hoffset : 0 ≤ offset) (horder : InOrder operations)
    (hrun : (new interval offset).performAll operations = .ok candle) :
    Tracks interval offset operations candle := by
  apply foldlM_invariant (tracks_new interval offset) _ hrun
  intro before operation after middle next hsplit htracks
  exact (tracks_step hinterval hoffset horder hsplit htracks).2 next

/-- A run returns exactly when every call of it is answerable. -/
theorem performAll_returns_iff (hinterval : 0 < interval) (hoffset : 0 ≤ offset)
    (horder : InOrder operations) :
    (∃ candle, (new interval offset).performAll operations = .ok candle) ↔
      ∀ before operation after, operations = before ++ operation :: after →
        Answerable interval offset before operation := by
  apply foldlM_returns_iff (I := Tracks interval offset) (tracks_new interval offset)
  · intro before operation after middle next hsplit htracks
    exact (tracks_step hinterval hoffset horder hsplit htracks).2 next
  · intro before operation after middle hsplit htracks
    exact (tracks_step hinterval hoffset horder hsplit htracks).1

/-! ## The empty candle -/

/-- No call reads an end of an empty sequence, and the candle of no trades is the default one. -/
def QueriedSafely (interval offset : ℤ) (operations : List Operation) : Prop :=
  (∃ candle, (new interval offset).performAll operations = .ok candle) ∧
    ∀ before time after, operations = before ++ .getOhlcv time :: after → ¬Filled before →
      ∃ candle next, (new interval offset).performAll before = .ok candle ∧
        candle.getOhlcv time = .ok (default, next)

/-- Exactly the runs in which every query comes after a push, and that of a candle only with an offset
within the interval, are safe. -/
theorem queriedSafely_iff (hinterval : 0 < interval) (hoffset : 0 ≤ offset)
    (horder : InOrder operations) :
    QueriedSafely interval offset operations ↔
      ∀ before operation after, operations = before ++ operation :: after →
        Answerable interval offset before operation := by
  rw [← performAll_returns_iff hinterval hoffset horder]
  constructor
  · intro hsafe
    exact hsafe.1
  · intro hreturns
    have hanswerable := (performAll_returns_iff hinterval hoffset horder).mp hreturns
    refine ⟨hreturns, fun before time after hsplit hempty => ?_⟩
    exact absurd (hanswerable before _ after hsplit).1 hempty

/-- A candle that is queried before its first trade. -/
theorem empty_not_queriedSafely : ¬QueriedSafely 60 0 [.getOhlcv 10] := by
  rintro ⟨⟨candle, hrun⟩, -⟩
  cases hrun

/-- A candle with an offset, queried behind its first trade. -/
theorem queriedSafely_pushed :
    QueriedSafely 60 20 [.pushTrade ⟨10, 1, 2⟩, .getOhlcv 12, .getQuoteVolume 90] := by
  refine (queriedSafely_iff (by decide) (by decide) ⟨by decide, by decide⟩).mpr ?_
  intro before operation after hsplit
  match before with
  | [] =>
    cases hsplit
    trivial
  | [_] =>
    cases hsplit
    exact ⟨⟨[], _, [], rfl, ⟨⟨10, 1, 2⟩, rfl⟩, by simp⟩, by decide⟩
  | [_, _] =>
    cases hsplit
    exact ⟨[], _, [.getOhlcv 12], rfl, ⟨⟨10, 1, 2⟩, rfl⟩, by simp⟩
  | _ :: _ :: _ :: _ => simp at hsplit

end MarketBlocks.MovingCandle
