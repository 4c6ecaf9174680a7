import MarketBlocks.Library.Runs
import MarketBlocks.Websockets.OhlcvSubscriptionService

/-!
# The entries of the OHLCV service

The service as a map from pair names and intervals to candle builders, beside the log of what it has
passed to its update callback. Every call is described by what it does to one entry and by what it
publishes; the callback may throw, depending on all that was passed to it before.
-/

namespace MarketBlocks

open Library

/-- What is passed to the update callback. -/
structure OhlcvPublication where
  pairName : String
  interval : OhlcvInterval
  ohlcv : OhlcvData
  deriving DecidableEq, Repr

/-- A callback that returns or throws, given what was passed to it before. -/
abbrev OhlcvCallback := List OhlcvPublication → OhlcvPublication → Except Fault Unit

/-- The callback, with a log of what is passed to it. -/
def OhlcvCallback.recording (callback : OhlcvCallback) : UpdateOhlcv (List OhlcvPublication) :=
  fun pairName interval ohlcv log =>
    (callback log ⟨pairName, interval, ohlcv⟩, log ++ [⟨pairName, interval, ohlcv⟩])

/-- A callback that always returns. -/
def OhlcvCallback.returning : OhlcvCallback := fun _ _ => .ok ()

/-- A call of the service, with what the REST API answers and the order in which the intervals of a
pair are walked while it runs. -/
inductive ServiceCall where
  | add (getOhlcv : GetOhlcv) (subscription : WebsocketSubscription)
  | remove (subscription : WebsocketSubscription)
  | update (order : IntervalOrder) (pairName : String) (time : ℤ) (price volume : ℚ)

/-- The service and the log of its publications. -/
abbrev ServiceRun := OhlcvSubscriptionService × List OhlcvPublication

namespace ServiceRun

/-- A new service, which has published nothing. -/
def start : ServiceRun := (.create, [])

/-- A call of the service, whose callback writes down what it is given. -/
def perform (callback : OhlcvCallback) (pairSeparator : Char) (call : ServiceCall) (s : ServiceRun) :
    Except Fault Unit × ServiceRun :=
  match call with
  | .add getOhlcv subscription =>
    OhlcvSubscriptionService.addSubscription pairSeparator getOhlcv callback.recording subscription s
  | .remove subscription =>
    let (result, service) := s.1.removeSubscription pairSeparator subscription
    (result, service, s.2)
  | .update order pairName time price volume =>
    OhlcvSubscriptionService.updateAll order callback.recording pairName time price volume s

/-- A call, whose result is dropped. -/
def step (callback : OhlcvCallback) (pairSeparator : Char) (s : ServiceRun) (call : ServiceCall) :
    ServiceRun :=
  (perform callback pairSeparator call s).2

/-- The calls of a run, whether they return or throw. -/
def run (callback : OhlcvCallback) (pairSeparator : Char) (calls : List ServiceCall) : ServiceRun :=
  calls.foldl (step callback pairSeparator) start

/-- The builder that is held for a pair name and an interval. -/
def entry (s : ServiceRun) (pairName : String) (interval : OhlcvInterval) : Option OhlcvFromTrades :=
  (s.1.builders pairName).lookup interval

/-- No pair is held without an interval. -/
def NoneEmpty (s : ServiceRun) : Prop := ∀ pairName ∈ s.1.subscriptions, s.1.builders pairName ≠ ∅

end ServiceRun

namespace OhlcvSubscriptionService

variable {service : OhlcvSubscriptionService} {pairName other : String} {interval : OhlcvInterval}
  {builders : UnorderedMap OhlcvInterval OhlcvFromTrades}

/-- The builders of one pair are replaced. -/
theorem builders_setBuilders :
    (service.setBuilders pairName builders).builders other =
      if other = pairName then builders else service.builders other := by
  rw [OhlcvSubscriptionService.builders, setBuilders, UnorderedMap.lookup_insert_eq]
  split
  · rfl
  · rfl

/-- The builders of one pair are removed. -/
theorem builders_erase :
    (⟨service.subscriptions.erase pairName⟩ : OhlcvSubscriptionService).builders other =
      if other = pairName then ∅ else service.builders other := by
  rw [OhlcvSubscriptionService.builders, UnorderedMap.lookup_erase_eq]
  split
  · rfl
  · rfl

/-- A pair with a builder is subscribed. -/
theorem isSubscribed_of_held {builder : OhlcvFromTrades}
    (h : (service.builders pairName).lookup interval = some builder) :
    service.isSubscribed pairName = true := by
  rw [isSubscribed, decide_eq_true_eq]
  by_contra hnot
  rw [OhlcvSubscriptionService.builders, Finmap.lookup_eq_none.mpr hnot] at h
  cases h

end OhlcvSubscriptionService

namespace ServiceRun

variable {callback : OhlcvCallback} {pairSeparator : Char} {s : ServiceRun} {pairName : String}
  {interval : OhlcvInterval}

/-- Replacing the builders of a pair by some that are not empty. -/
theorem NoneEmpty.setBuilders (h : s.NoneEmpty)
    {builders : UnorderedMap OhlcvInterval OhlcvFromTrades} (hbuilders : builders ≠ ∅)
    (pairName : String) (log : List OhlcvPublication) :
    NoneEmpty (s.1.setBuilders pairName builders, log) := by
  intro other hother
  rw [OhlcvSubscriptionService.builders_setBuilders]
  split
  · exact hbuilders
  · next hne =>
    simp only [OhlcvSubscriptionService.setBuilders, Finmap.mem_insert] at hother
    rcases hother with heq | hmem
    · exact absurd heq hne
    · exact h other hmem

/-- A pair is subscribed exactly when one of its intervals is held. -/
theorem NoneEmpty.isSubscribed_iff (h : s.NoneEmpty) (pairName : String) :
    s.1.isSubscribed pairName = true ↔ ∃ interval, (s.entry pairName interval).isSome := by
  rw [OhlcvSubscriptionService.isSubscribed, decide_eq_true_eq]
  constructor
  · intro hmem
    have hne := h pairName hmem
    by_contra hnone
    rw [not_exists] at hnone
    apply hne
    apply Finmap.ext_lookup
    intro interval
    rw [Finmap.lookup_empty]
    exact Option.not_isSome_iff_eq_none.mp (hnone interval)
  · rintro ⟨interval, hsome⟩
    by_contra hnot
    rw [entry, OhlcvSubscriptionService.builders, Finmap.lookup_eq_none.mpr hnot] at hsome
    simp at hsome

/-! ## Adding a subscription -/

/-- What the loop of `add_subscription` publishes: it ends where the REST API or the callback
throws. -/
def loaded (callback : OhlcvCallback) (pairSeparator : Char) (getOhlcv : GetOhlcv)
    (interval : OhlcvInterval) : List TradablePair → List OhlcvPublication → List OhlcvPublication
  | [], _ => []
  | pair :: rest, log =>
    match getOhlcv pair interval 1 with
    | .error _ => []
    | .ok ohlcvData =>
      let publication : OhlcvPublication :=
        ⟨pair.toStringWith pairSeparator, interval, ohlcvData.headD {}⟩
      match callback log publication with
      | .error _ => [publication]
      | .ok () =>
        publication :: loaded callback pairSeparator getOhlcv interval rest (log ++ [publication])

/-- The first candle that was loaded for a pair. -/
def firstLoaded (pairName : String) (publications : List OhlcvPublication) : Option OhlcvData :=
  (publications.find? (·.pairName = pairName)).map (·.ohlcv)

/-- The builder that the candles loaded for an interval give an entry without one. -/
def seeded (interval : OhlcvInterval) (publications : List OhlcvPublication) (pairName : String)
    (i : OhlcvInterval) : Option OhlcvFromTrades :=
  if i = interval then
    (firstLoaded pairName publications).map (OhlcvFromTrades.ofCandle · interval.toSeconds)
  else none

/-- Nothing was seeded. -/
@[simp] theorem seeded_nil (i : OhlcvInterval) : seeded interval [] pairName i = none := by
  unfold seeded
  split <;> rfl

/-- The first candle for a feed seeds it, and a later one does not. -/
theorem seeded_cons (name : String) (candle : OhlcvData) (rest : List OhlcvPublication)
    (i : OhlcvInterval) :
    seeded interval (⟨name, interval, candle⟩ :: rest) pairName i =
      (if pairName = name ∧ i = interval then some (.ofCandle candle interval.toSeconds) else none).or
        (seeded interval rest pairName i) := by
  unfold seeded firstLoaded
  by_cases hi : i = interval
  · by_cases hname : pairName = name
    · simp [hi, hname]
    · simp [hi, hname, Ne.symm hname]
  · simp [hi]

/-- The service after one pair was added. -/
def added (name : String) (interval : OhlcvInterval) (candle : OhlcvData) (s : ServiceRun) :
    ServiceRun :=
  (s.1.setBuilders name (UnorderedMap.emplace (s.1.builders name) interval
    (.ofCandle candle interval.toSeconds)), s.2 ++ [⟨name, interval, candle⟩])

/-- A pair whose candle can be read is added, and its candle published. -/
theorem addPair_of_ok {getOhlcv : GetOhlcv} {pair : TradablePair} {ohlcvData : List OhlcvData}
    (hread : getOhlcv pair interval 1 = .ok ohlcvData) (s : ServiceRun) :
    OhlcvSubscriptionService.addPair pairSeparator getOhlcv callback.recording interval interval.toSeconds
        pair s =
      (callback s.2 ⟨pair.toStringWith pairSeparator, interval, ohlcvData.headD {}⟩,
        s.added (pair.toStringWith pairSeparator) interval (ohlcvData.headD {})) := by
  rw [OhlcvSubscriptionService.addPair, hread]
  rfl

/-- A pair that is added keeps the builder that it has. -/
theorem entry_added (name : String) (candle : OhlcvData) (s : ServiceRun) (other : String)
    (i : OhlcvInterval) :
    (s.added name interval candle).entry other i = (s.entry other i).or
      (if other = name ∧ i = interval then some (.ofCandle candle interval.toSeconds) else none) := by
  rw [entry, added, OhlcvSubscriptionService.builders_setBuilders]
  by_cases hname : other = name
  · subst hname
    rw [if_pos rfl, UnorderedMap.lookup_emplace]
    simp only [true_and]
    rfl
  · rw [if_neg hname, if_neg (not_and_of_not_left _ hname), Option.or_none]
    rfl

/-- A pair that is added holds an interval. -/
theorem NoneEmpty.added (h : s.NoneEmpty) (name : String) (interval : OhlcvInterval)
    (candle : OhlcvData) : (s.added name interval candle).NoneEmpty := by
  refine h.setBuilders ?_ name _
  intro hempty
  have hlookup := congrArg (Finmap.lookup interval) hempty
  rw [UnorderedMap.lookup_emplace, if_pos rfl, Finmap.lookup_empty] at hlookup
  simp at hlookup

/-- What the loop of `add_subscription` does: each pair that it reaches is published, and has a
builder from its first candle if it had none. -/
theorem addLoop_spec (callback : OhlcvCallback) (pairSeparator : Char) (getOhlcv : GetOhlcv)
    (interval : OhlcvInterval) (pairs : List TradablePair) (h : s.NoneEmpty) :
    let s' := (forEach (OhlcvSubscriptionService.addPair pairSeparator getOhlcv callback.recording
      interval interval.toSeconds) (pairs.map .ok) s).2
    let publications := loaded callback pairSeparator getOhlcv interval pairs s.2
    s'.2 = s.2 ++ publications ∧ NoneEmpty s' ∧
      ∀ name i, entry s' name i = (s.entry name i).or (seeded interval publications name i) := by
  induction pairs generalizing s with
  | nil =>
    refine ⟨(List.append_nil _).symm, h, fun name i => ?_⟩
    rw [loaded, seeded_nil, Option.or_none]
    rfl
  | cons pair rest ih =>
    cases hread : getOhlcv pair interval 1 with
    | error fault =>
      have hthrown : OhlcvSubscriptionService.addPair pairSeparator getOhlcv callback.recording interval
          interval.toSeconds pair s = (.error fault, s) := by
        rw [OhlcvSubscriptionService.addPair, hread]
      simp only [List.map_cons, forEach, withRead, hthrown, andThen, loaded, hread]
      refine ⟨(List.append_nil _).symm, h, fun name i => ?_⟩
      rw [seeded_nil, Option.or_none]
    | ok ohlcvData =>
      have hadded := h.added (pair.toStringWith pairSeparator) interval (ohlcvData.headD {})
      simp only [List.map_cons, forEach, withRead, addPair_of_ok hread, loaded, hread]
      cases callback s.2 ⟨pair.toStringWith pairSeparator, interval, ohlcvData.headD {}⟩ with
      | error fault =>
        refine ⟨rfl, hadded, fun name i => ?_⟩
        simp only [andThen]
        rw [entry_added, seeded_cons, seeded_nil, Option.or_none]
      | ok value =>
        obtain ⟨hlog, hnone, hentries⟩ := ih hadded
        simp only [andThen]
        refine ⟨hlog.trans ?_, hnone, fun name i => ?_⟩
        · rw [added, List.append_assoc]
          rfl
        · rw [hentries, entry_added, seeded_cons, Option.or_assoc]
          rfl

/-! ## Removing a subscription -/

/-- Removing a pair takes its builder for the interval out and leaves the others. -/
theorem removePair_spec (pairSeparator : Char) (h : s.NoneEmpty) (pair : TradablePair)
    (interval : OhlcvInterval) :
    NoneEmpty (s.1.removePair pairSeparator interval pair, s.2) ∧
      ∀ name i, entry (s.1.removePair pairSeparator interval pair, s.2) name i =
        if name = pair.toStringWith pairSeparator ∧ i = interval then none else s.entry name i := by
  have hlookup (i : OhlcvInterval) :
      ((s.1.builders (pair.toStringWith pairSeparator)).erase interval).lookup i =
        if i = interval then none else s.entry (pair.toStringWith pairSeparator) i :=
    UnorderedMap.lookup_erase_eq _ _ _
  rw [OhlcvSubscriptionService.removePair]
  by_cases hempty : (s.1.builders (pair.toStringWith pairSeparator)).erase interval = ∅
  · simp only [if_pos hempty]
    refine ⟨fun other hother => ?_, fun name i => ?_⟩
    · simp only [Finmap.mem_erase] at hother
      rw [OhlcvSubscriptionService.builders_erase, if_neg hother.1]
      exact h other hother.2
    · rw [entry, OhlcvSubscriptionService.builders_erase]
      by_cases hname : name = pair.toStringWith pairSeparator
      · have hnone := hlookup i
        rw [hempty, Finmap.lookup_empty] at hnone
        rw [if_pos hname, Finmap.lookup_empty, hname]
        simp only [true_and]
        exact hnone
      · rw [if_neg hname, if_neg (not_and_of_not_left _ hname)]
        rfl
  · simp only [if_neg hempty]
    refine ⟨h.setBuilders hempty _ _, fun name i => ?_⟩
    rw [entry, OhlcvSubscriptionService.builders_setBuilders]
    by_cases hname : name = pair.toStringWith pairSeparator
    · rw [if_pos hname, hlookup, hname]
      simp only [true_and]
    · rw [if_neg hname, if_neg (not_and_of_not_left _ hname)]
      rfl

/-- Removing a list of pairs. -/
theorem removePairs_spec (pairSeparator : Char) (h : s.NoneEmpty) (pairs : List TradablePair)
    (interval : OhlcvInterval) :
    NoneEmpty (pairs.foldl (OhlcvSubscriptionService.removePair pairSeparator interval) s.1, s.2) ∧
      ∀ name i,
        entry (pairs.foldl (OhlcvSubscriptionService.removePair pairSeparator interval) s.1, s.2) name i =
          if name ∈ pairs.map (·.toStringWith pairSeparator) ∧ i = interval then none
          else s.entry name i := by
  induction pairs generalizing s with
  | nil =>
    refine ⟨h, fun name i => ?_⟩
    rw [if_neg (by simp)]
    rfl
  | cons pair rest ih =>
    obtain ⟨hnone, hentry⟩ := removePair_spec pairSeparator h pair interval
    obtain ⟨hrest, hentries⟩ := ih hnone
    refine ⟨hrest, fun name i => ?_⟩
    rw [List.foldl_cons]
    refine (hentries name i).trans ?_
    rw [hentry, List.map_cons]
    by_cases hi : i = interval
    · by_cases hname : name = pair.toStringWith pairSeparator
      · simp [hi, hname]
      · simp [hi, hname]
    · simp [hi]

/-! ## A trade -/

/-- What a trade makes of a builder: the candle that is published, and the builder with the trade. -/
def traded (time : ℤ) (price volume : ℚ) (builder : OhlcvFromTrades) : OhlcvData × OhlcvFromTrades :=
  (builder.addTrade time price volume).getOhlcv time

/-- The service after a trade has reached one builder. -/
def updated (name : String) (interval : OhlcvInterval) (result : OhlcvData × OhlcvFromTrades)
    (s : ServiceRun) : ServiceRun :=
  (s.1.setBuilders name ((s.1.builders name).insert interval result.2),
    s.2 ++ [⟨name, interval, result.1⟩])

variable {time : ℤ} {price volume : ℚ} {builder : OhlcvFromTrades}

/-- An interval that is not held takes no trade. -/
theorem updateBuilder_of_none (h : s.entry pairName interval = none) :
    OhlcvSubscriptionService.updateBuilder callback.recording pairName time price volume interval s =
      (.ok (), s) := by
  rw [OhlcvSubscriptionService.updateBuilder]
  simp only [entry] at h
  rw [h]

/-- An interval that is held takes the trade, and its candle is published. -/
theorem updateBuilder_of_some (h : s.entry pairName interval = some builder) :
    OhlcvSubscriptionService.updateBuilder callback.recording pairName time price volume interval s =
      (callback s.2 ⟨pairName, interval, (traded time price volume builder).1⟩,
        s.updated pairName interval (traded time price volume builder)) := by
  rw [OhlcvSubscriptionService.updateBuilder]
  simp only [entry] at h
  rw [h]
  rfl

/-- A trade that reaches one builder leaves the other entries alone. -/
theorem entry_updated (name : String) (result : OhlcvData × OhlcvFromTrades) (s : ServiceRun)
    (other : String) (i : OhlcvInterval) :
    (s.updated name interval result).entry other i =
      if other = name ∧ i = interval then some result.2 else s.entry other i := by
  rw [entry, updated, OhlcvSubscriptionService.builders_setBuilders]
  by_cases hname : other = name
  · subst hname
    rw [if_pos rfl, UnorderedMap.lookup_insert_eq]
    simp only [true_and]
    rfl
  · rw [if_neg hname, if_neg (not_and_of_not_left _ hname)]
    rfl

/-- A trade removes no interval. -/
theorem NoneEmpty.updated (h : s.NoneEmpty) (name : String) (interval : OhlcvInterval)
    (result : OhlcvData × OhlcvFromTrades) : (s.updated name interval result).NoneEmpty := by
  refine h.setBuilders ?_ name _
  intro hempty
  have hlookup := congrArg (Finmap.lookup interval) hempty
  rw [Finmap.lookup_insert, Finmap.lookup_empty] at hlookup
  cases hlookup

/-- What every builder of the pair keeps as it takes the trade is kept by the whole walk, wherever the
callback ends it. -/
theorem update_invariant {I : ServiceRun → Prop}
    (hupdated : ∀ (s : ServiceRun) (i : OhlcvInterval) (builder : OhlcvFromTrades), I s →
      I (s.updated pairName i (traded time price volume builder)))
    (callback : OhlcvCallback) (pairSeparator : Char) (order : IntervalOrder) (h : I s) :
    I (s.step callback pairSeparator (.update order pairName time price volume)) := by
  simp only [step, perform, OhlcvSubscriptionService.updateAll]
  split
  · refine forEach_rel (R := fun s s' : ServiceRun => I s → I s') (fun _ h => h)
      (fun _ _ _ h h' hfirst => h' (h hfirst)) (order.intervals.map .ok) ?_ s h
    intro i s _ h
    cases hentry : s.entry pairName i with
    | none =>
      rw [updateBuilder_of_none hentry]
      exact h
    | some builder =>
      rw [updateBuilder_of_some hentry]
      exact hupdated s i builder h
  · exact h

/-- What a trade publishes when the callback returns: the candle of each builder, in the order of the
walk. -/
def tradedPublications (pairName : String) (time : ℤ) (price volume : ℚ) (s : ServiceRun)
    (intervals : List OhlcvInterval) : List OhlcvPublication :=
  intervals.filterMap fun i => (s.entry pairName i).map fun builder =>
    ⟨pairName, i, (traded time price volume builder).1⟩

/-- Entries that differ from the earlier ones where the walk has been are, behind the rest of it, as if
the whole walk had started from the earlier ones. -/
theorem entries_walked {pairName : String} {j : OhlcvInterval} {rest : List OhlcvInterval}
    (hnew : j ∉ rest) {g : OhlcvFromTrades → OhlcvFromTrades}
    {entries : String → OhlcvInterval → Option OhlcvFromTrades}
    (hentries : ∀ name i, entries name i =
      if name = pairName ∧ i = j then (s.entry name i).map g else s.entry name i)
    (name : String) (i : OhlcvInterval) :
    (if name = pairName ∧ i ∈ rest then (entries name i).map g else entries name i) =
      if name = pairName ∧ i ∈ j :: rest then (s.entry name i).map g else s.entry name i := by
  rw [hentries]
  by_cases hi : i = j
  · rw [hi]
    simp [hnew]
  · simp [hi]

/-- With a callback that returns a trade reaches every builder of its pair once. -/
theorem updateLoop_spec (h : s.NoneEmpty) (pairName : String) (time : ℤ) (price volume : ℚ)
    {intervals : List OhlcvInterval} (hnodup : intervals.Nodup) :
    let result := forEach (OhlcvSubscriptionService.updateBuilder OhlcvCallback.returning.recording
      pairName time price volume) (intervals.map .ok) s
    result.1 = .ok () ∧ NoneEmpty result.2 ∧
      result.2.2 = s.2 ++ tradedPublications pairName time price volume s intervals ∧
      ∀ name i, entry result.2 name i =
        if name = pairName ∧ i ∈ intervals then
          (s.entry name i).map fun builder => (traded time price volume builder).2
        else s.entry name i := by
  induction intervals generalizing s with
  | nil =>
    refine ⟨rfl, h, (List.append_nil _).symm, fun name i => ?_⟩
    rw [if_neg (by simp)]
    rfl
  | cons j rest ih =>
    obtain ⟨hnew, hrest⟩ := List.nodup_cons.mp hnodup
    cases hj : s.entry pairName j with
    | none =>
      obtain ⟨hresult, hnone, hlog, hentries⟩ := ih h hrest
      simp only [List.map_cons, forEach, withRead, updateBuilder_of_none hj, andThen]
      refine ⟨hresult, hnone, ?_, fun name i => ?_⟩
      · rw [hlog, tradedPublications, tradedPublications, List.filterMap_cons, hj]
        rfl
      · rw [hentries]
        apply entries_walked hnew
        intro name i
        split
        · next heq => rw [heq.1, heq.2, hj, Option.map_none]
        · rfl
    | some builder =>
      obtain ⟨hresult, hnone, hlog, hentries⟩ :=
        ih (h.updated pairName j (traded time price volume builder)) hrest
      simp only [List.map_cons, forEach, withRead, updateBuilder_of_some hj, andThen,
        OhlcvCallback.returning]
      refine ⟨hresult, hnone, ?_, fun name i => ?_⟩
      · -- the entries that come later in the walk are those from before the trade
        have hsame : tradedPublications pairName time price volume
            (s.updated pairName j (traded time price volume builder)) rest =
            tradedPublications pairName time price volume s rest := by
          apply List.filterMap_congr
          intro i hi
          rw [entry_updated, if_neg]
          rintro ⟨_, rfl⟩
          exact hnew hi
        rw [hlog, hsame, updated, List.append_assoc]
        congr 1
        rw [tradedPublications, tradedPublications, List.filterMap_cons, hj]
        rfl
      · rw [hentries]
        apply entries_walked hnew
        intro name i
        rw [entry_updated]
        split
        · next heq => rw [heq.1, heq.2, hj, Option.map_some]
        · rfl

end ServiceRun

end MarketBlocks
