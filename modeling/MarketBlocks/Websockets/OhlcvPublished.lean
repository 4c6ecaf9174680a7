import MarketBlocks.Library.LastWrite
import MarketBlocks.Websockets.OhlcvFamily

/-!
# Published and held candles

The service keeps a candle for each entry, and its callback has been given one. Trades and removals
keep the two the same. An add publishes what it loads but keeps a builder that is there, so they come
apart there, unless the candle that is loaded is the one that is held.
-/

namespace MarketBlocks

open Library

/-- The feed that a candle is published for. -/
def OhlcvPublication.feed (publication : OhlcvPublication) : String × OhlcvInterval :=
  (publication.pairName, publication.interval)

namespace ServiceRun

variable {callback : OhlcvCallback} {pairSeparator : Char} {s : ServiceRun} {pairName : String}
  {interval : OhlcvInterval}

/-- The candle last published for an entry. -/
def lastPublished (log : List OhlcvPublication) (pairName : String) (interval : OhlcvInterval) :
    Option OhlcvData :=
  (lastWrite OhlcvPublication.feed log (pairName, interval)).map (·.ohlcv)

/-- The candle that the service holds for an entry. -/
def held (s : ServiceRun) (pairName : String) (interval : OhlcvInterval) : Option OhlcvData :=
  (s.entry pairName interval).map (·.ohlcv)

/-- For every entry that is held, the candle last published is the one that is held. -/
def Consistent (s : ServiceRun) : Prop :=
  ∀ pairName interval candle, s.held pairName interval = some candle →
    lastPublished s.2 pairName interval = some candle

/-- An add that comes to a pair which has a builder loads, in the end, the candle that is held; and
one that comes to a new pair several times loads its first candle again. -/
def Agrees (callback : OhlcvCallback) (pairSeparator : Char) (s : ServiceRun) : ServiceCall → Prop
  | .add getOhlcv subscription => ∀ interval,
      OhlcvSubscriptionService.loadedInterval subscription = some interval →
      let publications := loaded callback pairSeparator getOhlcv interval subscription.pairItem s.2
      ∀ pairName candle, lastPublished publications pairName interval = some candle →
        (s.held pairName interval).or (firstLoaded pairName publications) = some candle
  | .remove _ | .update .. => True

/-- What was published later counts. -/
theorem lastPublished_append (log later : List OhlcvPublication) (pairName : String)
    (interval : OhlcvInterval) :
    lastPublished (log ++ later) pairName interval =
      (lastPublished later pairName interval).or (lastPublished log pairName interval) := by
  rw [lastPublished, lastWrite_append, Option.map_or]
  rfl

/-- A further publication is the last of its own feed. -/
theorem lastPublished_concat (log : List OhlcvPublication) (name : String) (i : OhlcvInterval)
    (candle : OhlcvData) :
    lastPublished (log ++ [⟨name, i, candle⟩]) pairName interval =
      if pairName = name ∧ interval = i then some candle
      else lastPublished log pairName interval := by
  have hkey : OhlcvPublication.feed ⟨name, i, candle⟩ = (pairName, interval) ↔
      pairName = name ∧ interval = i := by
    simp only [OhlcvPublication.feed, Prod.mk.injEq, eq_comm]
  rw [lastPublished, lastWrite_concat]
  by_cases hfeed : pairName = name ∧ interval = i
  · rw [if_pos (hkey.mpr hfeed), if_pos hfeed]
    rfl
  · rw [if_neg (mt hkey.mp hfeed), if_neg hfeed]
    rfl

/-- All that an add publishes is for its interval. -/
theorem interval_of_mem_loaded {getOhlcv : GetOhlcv} {pairs : List TradablePair}
    {log : List OhlcvPublication} {publication : OhlcvPublication}
    (h : publication ∈ loaded callback pairSeparator getOhlcv interval pairs log) :
    publication.interval = interval := by
  induction pairs generalizing log with
  | nil => cases h
  | cons pair rest ih =>
    rw [loaded] at h
    split at h
    · cases h
    · dsimp only at h
      split at h
      · rw [List.mem_singleton.mp h]
      · rcases List.mem_cons.mp h with heq | hmem
        · rw [heq]
        · exact ih hmem

/-- Nothing is published of an interval that is not loaded. -/
theorem lastPublished_of_ne {getOhlcv : GetOhlcv} {pairs : List TradablePair}
    {log : List OhlcvPublication} {i : OhlcvInterval} (hi : i ≠ interval) :
    lastPublished (loaded callback pairSeparator getOhlcv interval pairs log) pairName i = none := by
  rw [lastPublished, Option.map_eq_none_iff, lastWrite_eq_none_iff]
  intro publication hmem heq
  obtain ⟨_, heq⟩ := Prod.mk.inj heq
  exact hi (heq.symm.trans (interval_of_mem_loaded hmem))

/-- An add that has not loaded a pair has not published it. -/
theorem firstLoaded_eq_none_iff {getOhlcv : GetOhlcv} {pairs : List TradablePair}
    {log : List OhlcvPublication} :
    firstLoaded pairName (loaded callback pairSeparator getOhlcv interval pairs log) = none ↔
      lastPublished (loaded callback pairSeparator getOhlcv interval pairs log) pairName interval =
        none := by
  rw [firstLoaded, lastPublished, Option.map_eq_none_iff, Option.map_eq_none_iff,
    lastWrite_eq_none_iff, List.find?_eq_none]
  apply forall₂_congr
  intro publication hmem
  rw [decide_eq_true_eq, OhlcvPublication.feed, interval_of_mem_loaded hmem]
  simp only [ne_eq, Prod.mk.injEq, and_true]

/-! ## Steps -/

/-- A trade is published as it is held, whatever the callback does. -/
theorem Consistent.update (h : s.Consistent) (order : IntervalOrder) (pairName : String) (time : ℤ)
    (price volume : ℚ) :
    (s.step callback pairSeparator (.update order pairName time price volume)).Consistent := by
  refine update_invariant ?_ callback pairSeparator order h
  intro s interval builder h other i candle hheld
  rw [held, entry_updated] at hheld
  rw [updated, lastPublished_concat]
  split
  · next hfeed =>
    rw [if_pos hfeed] at hheld
    exact hheld
  · next hfeed =>
    rw [if_neg hfeed] at hheld
    exact h other i candle hheld

/-- A removal publishes nothing, and what is still held was held before. -/
theorem Consistent.remove (h : s.Consistent) (hnone : s.NoneEmpty)
    (subscription : WebsocketSubscription) :
    (s.step callback pairSeparator (.remove subscription)).Consistent := by
  simp only [step, perform, OhlcvSubscriptionService.removeSubscription,
    BasicWebsocketSubscription.getOhlcvInterval]
  cases subscription.parameter with
  | none => exact h
  | some interval =>
    intro other i candle hheld
    obtain ⟨_, hentries⟩ := removePairs_spec pairSeparator hnone subscription.pairItem interval
    simp only [withRead, held, hentries] at hheld
    split at hheld
    · cases hheld
    · exact h other i candle hheld

/-- What an add makes of the candles that are held. -/
theorem held_add (callback : OhlcvCallback) (pairSeparator : Char) (hnone : s.NoneEmpty)
    (getOhlcv : GetOhlcv) (subscription : WebsocketSubscription)
    (hinterval : OhlcvSubscriptionService.loadedInterval subscription = some interval) :
    let s' := s.step callback pairSeparator (.add getOhlcv subscription)
    let publications := loaded callback pairSeparator getOhlcv interval subscription.pairItem s.2
    s'.2 = s.2 ++ publications ∧ ∀ name i, held s' name i =
      (s.held name i).or (if i = interval then firstLoaded name publications else none) := by
  simp only [step, perform, OhlcvSubscriptionService.addSubscription_of_some hinterval]
  obtain ⟨hlog, _, hentries⟩ := addLoop_spec callback pairSeparator getOhlcv interval
    subscription.pairItem hnone
  refine ⟨hlog, fun name i => ?_⟩
  rw [held, hentries, Option.map_or, held, seeded]
  by_cases hi : i = interval
  · rw [if_pos hi, if_pos hi, Option.map_map]
    exact congrArg _ Option.map_id'
  · rw [if_neg hi, if_neg hi]
    rfl

/-- An add leaves the published candles as they are held exactly when it agrees with them. -/
theorem Consistent.add_iff (h : s.Consistent) (hnone : s.NoneEmpty) (getOhlcv : GetOhlcv)
    (subscription : WebsocketSubscription) :
    Agrees callback pairSeparator s (.add getOhlcv subscription) ↔
      (s.step callback pairSeparator (.add getOhlcv subscription)).Consistent := by
  rw [Agrees]
  cases hinterval : OhlcvSubscriptionService.loadedInterval subscription with
  | none =>
    obtain ⟨_, hthrown⟩ := OhlcvSubscriptionService.addSubscription_of_none hinterval s
    simp only [step, perform]
    rw [hthrown]
    exact iff_of_true (fun interval hsome => by cases hsome) h
  | some interval =>
    obtain ⟨hlog, hheld⟩ := held_add callback pairSeparator hnone getOhlcv subscription hinterval
    constructor
    · intro hagrees name i candle hcandle
      rw [hheld] at hcandle
      rw [hlog, lastPublished_append]
      by_cases hi : i = interval
      · subst hi
        rw [if_pos rfl] at hcandle
        cases hpublished : lastPublished
            (loaded callback pairSeparator getOhlcv i subscription.pairItem s.2) name i with
        | none =>
          -- a pair that the add does not come to stays as it was
          rw [firstLoaded_eq_none_iff.mpr hpublished, Option.or_none] at hcandle
          exact h name i candle hcandle
        | some published =>
          have hsame := hagrees i rfl name published hpublished
          rw [hcandle] at hsame
          exact hsame.symm
      · rw [if_neg hi, Option.or_none] at hcandle
        rw [lastPublished_of_ne hi]
        exact h name i candle hcandle
    · intro hconsistent i hi publications name candle hpublished
      cases hi
      have hafter := hheld name interval
      rw [if_pos rfl] at hafter
      cases hfound : (s.held name interval).or (firstLoaded name publications) with
      | none =>
        -- the pair was loaded, so a candle is held for it
        obtain ⟨_, hnot⟩ := Option.or_eq_none_iff.mp hfound
        rw [firstLoaded_eq_none_iff.mp hnot] at hpublished
        cases hpublished
      | some candle' =>
        have hlast := hconsistent name interval candle' (hafter.trans hfound)
        rw [hlog, lastPublished_append, hpublished] at hlast
        exact hlast.symm

/-- What is published is what is held, after every call of a run, exactly when each add of the
run agrees with what is held. -/
theorem published_iff_agrees (callback : OhlcvCallback) (pairSeparator : Char)
    (calls : List ServiceCall) :
    EveryStep (step callback pairSeparator) (Agrees callback pairSeparator) start calls ↔
      ∀ before, before <+: calls → (run callback pairSeparator before).Consistent := by
  apply everyStep_iff_of_invariant (I := fun s => s.NoneEmpty ∧ s.Consistent)
  · rintro s call ⟨hnone, h⟩ hagrees
    refine ⟨hnone.step callback call, ?_⟩
    cases call with
    | add getOhlcv subscription => exact (h.add_iff hnone getOhlcv subscription).mp hagrees
    | remove subscription => exact h.remove hnone subscription
    | update order name time price volume => exact h.update order name time price volume
  · exact fun s h => h.2
  · rintro s call ⟨hnone, h⟩ hnot hconsistent
    cases call with
    | add getOhlcv subscription =>
      exact hnot ((h.add_iff hnone getOhlcv subscription).mpr hconsistent)
    | remove subscription => exact hnot trivial
    | update order name time price volume => exact hnot trivial
  · exact ⟨noneEmpty_run callback pairSeparator [], fun name i candle h => by cases h⟩

/-- A second subscription to an interval of a pair, to which the REST API answers with a newer
candle: the newer one is published, and the older one is held. -/
theorem published_not_held :
    ¬∀ (callback : OhlcvCallback) (pairSeparator : Char) (calls : List ServiceCall),
      (run callback pairSeparator calls).Consistent := by
  intro hall
  have h := hall .returning '-'
    [.add (fun _ _ _ => .ok [⟨0, 1, 1, 1, 1, 1⟩]) (.createOhlcvSub [⟨"BTC", "USD"⟩] .m1),
      .add (fun _ _ _ => .ok [⟨60, 2, 2, 2, 2, 2⟩]) (.createOhlcvSub [⟨"BTC", "USD"⟩] .m1)]
    "BTC-USD" .m1 ⟨0, 1, 1, 1, 1, 1⟩ (by decide +kernel)
  exact absurd h (by decide +kernel)

end ServiceRun

end MarketBlocks
