import MarketBlocks.Websockets.OhlcvFamily

/-!
# The assertion of the candle builders

`get_ohlcv` asserts that its time is not before the candle. `update_ohlcv` calls it for every builder
of a pair, with the time of a trade that `add_trade` passes over when it comes before the candle.
-/

namespace MarketBlocks

open Library

namespace OhlcvFromTrades

variable {builder : OhlcvFromTrades} {time : ℤ}

/-- A builder that is moved on to a time starts no later. -/
theorem startTime_atTime_le (h : builder.startTime ≤ time) : (builder.atTime time).startTime ≤ time := by
  unfold atTime
  split
  · have hdivision := Int.tdiv_mul_add_tmod (time - builder.startTime) builder.interval
    have hrest := Int.tmod_nonneg builder.interval (by omega : 0 ≤ time - builder.startTime)
    dsimp only [startNewCandle]
    omega
  · exact h

/-- Once a trade is in, its time is not before the candle unless it was before. -/
theorem startTime_addTrade_le_iff (price volume : ℚ) :
    (builder.addTrade time price volume).startTime ≤ time ↔ builder.startTime ≤ time := by
  rcases lt_or_ge time builder.startTime with hlate | htimely
  · rw [addTrade_of_lt hlate]
  · rw [addTrade_eq htimely]
    exact iff_of_true (startTime_atTime_le htimely) htimely

end OhlcvFromTrades

namespace ServiceRun

/-- The assertion of `get_ohlcv`, which is called once the trade is in. -/
def Asserts (pairName : String) (time : ℤ) (price volume : ℚ) (interval : OhlcvInterval)
    (s : ServiceRun) : Prop :=
  ∀ builder, s.entry pairName interval = some builder →
    (builder.addTrade time price volume).startTime ≤ time

/-- Every call of `get_ohlcv` that a call of the service makes satisfies the assertion. -/
def AssertionsHold (callback : OhlcvCallback) (s : ServiceRun) : ServiceCall → Prop
  | .update order pairName time price volume =>
    s.1.isSubscribed pairName = true →
      EveryCall (OhlcvSubscriptionService.updateBuilder callback.recording pairName time price volume)
        (Asserts pairName time price volume) (order.intervals.map .ok) s
  | .add .. | .remove _ => True

/-- No candle of the pair has started after the time. -/
def StartedBy (pairName : String) (time : ℤ) (s : ServiceRun) : Prop :=
  ∀ interval builder, s.entry pairName interval = some builder → builder.startTime ≤ time

/-- No candle of the pair has started after the trade. -/
def Timely (s : ServiceRun) : ServiceCall → Prop
  | .update _ pairName time _ _ => s.StartedBy pairName time
  | .add .. | .remove _ => True

variable {callback : OhlcvCallback} {pairSeparator : Char} {s : ServiceRun} {pairName : String}
  {interval : OhlcvInterval} {time : ℤ} {price volume : ℚ}

/-- A builder that takes a trade does not start after it. -/
private theorem startTime_traded_le {builder : OhlcvFromTrades} (h : builder.startTime ≤ time) :
    (traded time price volume builder).2.startTime ≤ time :=
  OhlcvFromTrades.startTime_atTime_le ((OhlcvFromTrades.startTime_addTrade_le_iff price volume).mpr h)

/-- A timely trade leaves its pair timely while the builders take it one after the other. -/
theorem assertionsHold_of_timely (callback : OhlcvCallback) {call : ServiceCall} (h : s.Timely call) :
    s.AssertionsHold callback call := by
  cases call with
  | add getOhlcv subscription => trivial
  | remove subscription => trivial
  | update order pairName time price volume =>
    intro _
    refine everyCall_of_invariant (I := StartedBy pairName time) ?_ ?_ _ h
    · intro i s htimely
      cases hentry : s.entry pairName i with
      | none =>
        rw [updateBuilder_of_none hentry]
        exact htimely
      | some builder =>
        rw [updateBuilder_of_some hentry]
        intro interval other hother
        rw [entry_updated] at hother
        split at hother
        · cases hother
          exact startTime_traded_le (htimely i builder hentry)
        · exact htimely interval other hother
    · intro i s htimely builder hentry
      exact (OhlcvFromTrades.startTime_addTrade_le_iff price volume).mpr (htimely i builder hentry)

/-- When the callback returns, every builder of the pair takes the trade. -/
private theorem startTime_le_of_everyCall {intervals : List OhlcvInterval} (hnodup : intervals.Nodup)
    (h : EveryCall (OhlcvSubscriptionService.updateBuilder OhlcvCallback.returning.recording pairName time
      price volume) (Asserts pairName time price volume) (intervals.map .ok) s)
    (hmem : interval ∈ intervals) {builder : OhlcvFromTrades}
    (hentry : s.entry pairName interval = some builder) : builder.startTime ≤ time := by
  induction intervals generalizing s with
  | nil => cases hmem
  | cons j rest ih =>
    obtain ⟨hnew, hrest⟩ := List.nodup_cons.mp hnodup
    obtain ⟨hnow, hlater⟩ := h
    rcases List.mem_cons.mp hmem with rfl | hbehind
    · exact (OhlcvFromTrades.startTime_addTrade_le_iff price volume).mp (hnow builder hentry)
    · cases hj : s.entry pairName j with
      | none =>
        rw [updateBuilder_of_none hj] at hlater
        exact ih hrest (hlater rfl) hbehind hentry
      | some other =>
        rw [updateBuilder_of_some hj] at hlater
        apply ih hrest (hlater rfl) hbehind
        rw [entry_updated, if_neg]
        · exact hentry
        · rintro ⟨_, rfl⟩
          exact hnew hbehind

/-- Where the assertion holds the trade was timely. -/
theorem timely_of_assertionsHold {call : ServiceCall} (h : s.AssertionsHold .returning call) :
    s.Timely call := by
  cases call with
  | add getOhlcv subscription => trivial
  | remove subscription => trivial
  | update order pairName time price volume =>
    intro interval builder hentry
    have hsubscribed := OhlcvSubscriptionService.isSubscribed_of_held hentry
    exact startTime_le_of_everyCall order.nodup (h hsubscribed) (order.mem interval) hentry

/-- The assertion holds throughout a run of timely trades, whatever the callback does. When it always
returns, it holds in no other run. -/
theorem run_assertionsHold (pairSeparator : Char) (calls : List ServiceCall) :
    (∀ callback : OhlcvCallback,
      EveryStep (step callback pairSeparator) Timely start calls →
        EveryStep (step callback pairSeparator) (AssertionsHold callback) start calls) ∧
    (EveryStep (step .returning pairSeparator) (AssertionsHold .returning) start calls ↔
      EveryStep (step .returning pairSeparator) Timely start calls) := by
  have hsufficient : ∀ callback : OhlcvCallback,
      EveryStep (step callback pairSeparator) Timely start calls →
        EveryStep (step callback pairSeparator) (AssertionsHold callback) start calls :=
    fun callback => EveryStep.imp fun _ _ => assertionsHold_of_timely callback
  refine ⟨hsufficient, ?_, hsufficient .returning⟩
  exact EveryStep.imp fun _ _ => timely_of_assertionsHold

/-- A trade of one second before the candle that the trade before it has opened. -/
theorem late_trade_trips :
    ¬∀ (callback : OhlcvCallback) (pairSeparator : Char) (calls : List ServiceCall),
      EveryStep (step callback pairSeparator) (AssertionsHold callback) start calls := by
  intro hall
  have h := hall .returning '-'
    [.add (fun _ _ _ => .ok [⟨60, 1, 1, 1, 1, 1⟩]) (.createOhlcvSub [⟨"BTC", "USD"⟩] .m1),
      .update ⟨[.m1, .m5, .m15, .h1, .d1, .w1, .unknown], .refl _⟩ "BTC-USD" 125 2 3,
      .update ⟨[.m1, .m5, .m15, .h1, .d1, .w1, .unknown], .refl _⟩ "BTC-USD" 119 2 3]
  have htimely := timely_of_assertionsHold h.2.2.1 .m1 ⟨120, 1, 2, 1, 2, 3, 60, 125⟩ (by decide +kernel)
  exact absurd htimely (by decide)

end ServiceRun

end MarketBlocks
