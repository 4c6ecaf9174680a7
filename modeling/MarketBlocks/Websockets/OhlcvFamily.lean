import Mathlib.Data.List.Induction
import MarketBlocks.Websockets.OhlcvEntries

/-!
# The service as a family of builders

As long as the update callback returns, the entries of the service do not depend on one another: each
moves like one candle builder, which an add creates, trades of its pair move and a removal takes
away. What a trade publishes for an entry is what this builder gives.
-/

namespace MarketBlocks

open Library

/-- The candle that the loop of `add_subscription` loads when it reaches the first pair of a name. -/
def reachedCandle (pairSeparator : Char) (getOhlcv : GetOhlcv) (interval : OhlcvInterval)
    (pairName : String) : List TradablePair → Option OhlcvData
  | [] => none
  | pair :: rest =>
    match getOhlcv pair interval 1 with
    | .error _ => none
    | .ok ohlcvData =>
      if pair.toStringWith pairSeparator = pairName then some (ohlcvData.headD {})
      else reachedCandle pairSeparator getOhlcv interval pairName rest

namespace IntervalOrder

/-- Every interval is walked. -/
theorem mem (order : IntervalOrder) (interval : OhlcvInterval) : interval ∈ order.intervals := by
  rw [order.perm.mem_iff]
  cases interval <;> decide

/-- No interval is walked twice. -/
theorem nodup (order : IntervalOrder) : order.intervals.Nodup := by
  rw [order.perm.nodup_iff]
  decide

end IntervalOrder

namespace ServiceCall

/-- The candle with which a call reaches an entry, if it adds it. -/
def reached (pairSeparator : Char) (pairName : String) (interval : OhlcvInterval) :
    ServiceCall → Option OhlcvData
  | .add getOhlcv subscription =>
    if OhlcvSubscriptionService.loadedInterval subscription = some interval then
      reachedCandle pairSeparator getOhlcv interval pairName subscription.pairItem
    else none
  | .remove _ | .update .. => none

/-- The call removes an entry, if it is there. -/
def Removes (pairSeparator : Char) (pairName : String) (interval : OhlcvInterval) :
    ServiceCall → Prop
  | .remove subscription => subscription.parameter = some interval ∧
      pairName ∈ subscription.pairItem.map (·.toStringWith pairSeparator)
  | .add .. | .update .. => False

/-- What a call asks of the builder of a pair. -/
def tradesOf (pairName : String) : ServiceCall → List OhlcvFromTrades.Call
  | .update _ name time price volume =>
    if name = pairName then [.addTrade time price volume, .getOhlcv time] else []
  | .add .. | .remove _ => []

end ServiceCall

namespace ServiceRun

variable {pairSeparator : Char} {s : ServiceRun} {pairName : String} {interval : OhlcvInterval}

/-- What a call makes of one entry, whatever the others are. -/
def entryStep (pairSeparator : Char) (pairName : String) (interval : OhlcvInterval)
    (call : ServiceCall) (entry : Option OhlcvFromTrades) : Option OhlcvFromTrades :=
  match call with
  | .add .. => entry.or ((call.reached pairSeparator pairName interval).map
      (OhlcvFromTrades.ofCandle · interval.toSeconds))
  | .remove subscription =>
    if subscription.parameter = some interval ∧
        pairName ∈ subscription.pairItem.map (·.toStringWith pairSeparator) then none
    else entry
  | .update .. => entry.map (OhlcvFromTrades.run · (call.tradesOf pairName))

/-- The first candle that is loaded for a pair is the one that its call reaches. -/
theorem firstLoaded_loaded (getOhlcv : GetOhlcv) (interval : OhlcvInterval) (pairs : List TradablePair)
    (log : List OhlcvPublication) :
    firstLoaded pairName (loaded .returning pairSeparator getOhlcv interval pairs log) =
      reachedCandle pairSeparator getOhlcv interval pairName pairs := by
  induction pairs generalizing log with
  | nil => rfl
  | cons pair rest ih =>
    rw [loaded, reachedCandle]
    cases getOhlcv pair interval 1 with
    | error fault => rfl
    | ok ohlcvData =>
      simp only [OhlcvCallback.returning, firstLoaded, List.find?_cons]
      by_cases hname : pair.toStringWith pairSeparator = pairName
      · simp [hname]
      · simp only [hname, decide_false, if_false]
        exact ih _

/-- A call gives no pair without intervals. -/
theorem NoneEmpty.step (h : s.NoneEmpty) (callback : OhlcvCallback) (call : ServiceCall) :
    (s.step callback pairSeparator call).NoneEmpty := by
  cases call with
  | add getOhlcv subscription =>
    simp only [ServiceRun.step, perform]
    cases hinterval : OhlcvSubscriptionService.loadedInterval subscription with
    | none =>
      obtain ⟨_, hthrown⟩ := OhlcvSubscriptionService.addSubscription_of_none hinterval s
      rw [hthrown]
      exact h
    | some interval =>
      rw [OhlcvSubscriptionService.addSubscription_of_some hinterval]
      exact (addLoop_spec callback pairSeparator getOhlcv interval subscription.pairItem h).2.1
  | remove subscription =>
    simp only [ServiceRun.step, perform, OhlcvSubscriptionService.removeSubscription,
      BasicWebsocketSubscription.getOhlcvInterval]
    cases subscription.parameter with
    | none => exact h
    | some interval => exact (removePairs_spec pairSeparator h subscription.pairItem interval).1
  | update order pairName time price volume =>
    exact update_invariant (fun _ i _ hnone => hnone.updated pairName i _) callback pairSeparator order h

/-- Every call moves each entry on its own. -/
theorem entry_step (h : s.NoneEmpty) (call : ServiceCall) (name : String) (i : OhlcvInterval) :
    (s.step .returning pairSeparator call).entry name i =
      entryStep pairSeparator name i call (s.entry name i) := by
  cases call with
  | add getOhlcv subscription =>
    simp only [ServiceRun.step, perform, entryStep, ServiceCall.reached]
    cases hinterval : OhlcvSubscriptionService.loadedInterval subscription with
    | none =>
      obtain ⟨_, hthrown⟩ := OhlcvSubscriptionService.addSubscription_of_none hinterval s
      rw [hthrown]
      simp only [reduceCtorEq, if_false, Option.map_none, Option.or_none]
    | some interval =>
      obtain ⟨_, _, hentries⟩ := addLoop_spec .returning pairSeparator getOhlcv interval
        subscription.pairItem h
      rw [OhlcvSubscriptionService.addSubscription_of_some hinterval]
      simp only [hentries, seeded, firstLoaded_loaded]
      by_cases hi : i = interval
      · rw [hi, if_pos rfl, if_pos rfl]
      · rw [if_neg hi, if_neg fun heq => hi (Option.some.inj heq).symm]
        rfl
  | remove subscription =>
    simp only [ServiceRun.step, perform, OhlcvSubscriptionService.removeSubscription,
      BasicWebsocketSubscription.getOhlcvInterval, entryStep]
    cases hinterval : subscription.parameter with
    | none =>
      simp only [withRead, reduceCtorEq, false_and, if_false]
    | some interval =>
      obtain ⟨_, hentries⟩ := removePairs_spec pairSeparator h subscription.pairItem interval
      simp only [withRead, hentries, Option.some.injEq]
      exact if_congr (by rw [and_comm, eq_comm (b := i)]) rfl rfl
  | update order pairName time price volume =>
    simp only [ServiceRun.step, perform, OhlcvSubscriptionService.updateAll, entryStep,
      ServiceCall.tradesOf]
    by_cases hsubscribed : s.1.isSubscribed pairName = true
    · obtain ⟨_, _, _, hentries⟩ := updateLoop_spec h pairName time price volume order.nodup
      rw [if_pos hsubscribed, hentries]
      by_cases hname : name = pairName
      · rw [if_pos ⟨hname, order.mem i⟩, if_pos hname.symm]
        rfl
      · rw [if_neg (not_and_of_not_left _ hname), if_neg (Ne.symm hname)]
        exact (Option.map_id' (x := s.entry name i)).symm
    · rw [if_neg hsubscribed]
      by_cases hname : pairName = name
      · -- a pair that is not subscribed has no entry that the trade could move
        have hnone : s.entry name i = none := by
          rw [h.isSubscribed_iff, hname, not_exists] at hsubscribed
          exact Option.not_isSome_iff_eq_none.mp (hsubscribed i)
        rw [hnone]
        rfl
      · rw [if_neg hname]
        exact (Option.map_id' (x := s.entry name i)).symm

/-! ## Runs -/

/-- An interval that is not held is begun by a candle that is reached. -/
theorem entryStep_none (call : ServiceCall) :
    entryStep pairSeparator pairName interval call none =
      (call.reached pairSeparator pairName interval).map
        (OhlcvFromTrades.ofCandle · interval.toSeconds) := by
  cases call with
  | add getOhlcv subscription => exact Option.none_or
  | remove subscription => exact ite_self none
  | update order name time price volume => rfl

/-- An interval that is removed is not held. -/
theorem entryStep_of_removes {call : ServiceCall}
    (h : call.Removes pairSeparator pairName interval) (entry : Option OhlcvFromTrades) :
    entryStep pairSeparator pairName interval call entry = none := by
  cases call with
  | add getOhlcv subscription => exact h.elim
  | remove subscription => exact if_pos h
  | update order name time price volume => exact h.elim

/-- An interval that is held and not removed takes the trades of its pair. -/
theorem entryStep_some {call : ServiceCall} (h : ¬call.Removes pairSeparator pairName interval)
    (builder : OhlcvFromTrades) :
    entryStep pairSeparator pairName interval call (some builder) =
      some (builder.run (call.tradesOf pairName)) := by
  cases call with
  | add getOhlcv subscription => rfl
  | remove subscription => exact if_neg h
  | update order name time price volume => rfl

/-- An entry is there after an add that reaches it, and before that unless it is removed. -/
theorem isSome_entryStep (call : ServiceCall) (entry : Option OhlcvFromTrades) :
    (entryStep pairSeparator pairName interval call entry).isSome ↔
      (call.reached pairSeparator pairName interval).isSome ∨
        (¬call.Removes pairSeparator pairName interval ∧ entry.isSome) := by
  cases entry with
  | none =>
    rw [entryStep_none]
    simp
  | some builder =>
    by_cases hremoves : call.Removes pairSeparator pairName interval
    · have hnone : call.reached pairSeparator pairName interval = none := by
        cases call with
        | add getOhlcv subscription => exact hremoves.elim
        | remove subscription => rfl
        | update order name time price volume => rfl
      rw [entryStep_of_removes hremoves, hnone]
      simp [hremoves]
    · rw [entryStep_some hremoves]
      simp [hremoves]

/-- A call leaves a pair subscribed when it reaches one of its intervals, or one is kept. -/
theorem isSubscribed_step (h : s.NoneEmpty) (call : ServiceCall) (pairName : String) :
    (s.step .returning pairSeparator call).1.isSubscribed pairName = true ↔
      ∃ interval, (call.reached pairSeparator pairName interval).isSome ∨
        (¬call.Removes pairSeparator pairName interval ∧ (s.entry pairName interval).isSome) := by
  rw [(h.step .returning call).isSubscribed_iff]
  apply exists_congr
  intro interval
  rw [entry_step h, isSome_entryStep]

/-- A run with a further call is that call after the run. -/
theorem run_concat (callback : OhlcvCallback) (calls : List ServiceCall) (call : ServiceCall) :
    run callback pairSeparator (calls ++ [call]) =
      (run callback pairSeparator calls).step callback pairSeparator call := by
  rw [run, List.foldl_append]
  rfl

/-- No run holds a pair without an interval. -/
theorem noneEmpty_run (callback : OhlcvCallback) (pairSeparator : Char) (calls : List ServiceCall) :
    (run callback pairSeparator calls).NoneEmpty := by
  apply foldl_invariant
  · intro s call h
    exact h.step callback call
  · intro name hmem
    exact absurd hmem Finmap.notMem_empty

/-- The builder of an interval after one more call. -/
theorem entry_run_concat (calls : List ServiceCall) (call : ServiceCall) :
    (run .returning pairSeparator (calls ++ [call])).entry pairName interval =
      entryStep pairSeparator pairName interval call
        ((run .returning pairSeparator calls).entry pairName interval) := by
  rw [run_concat, entry_step (noneEmpty_run _ _ calls)]

/-- An entry is held exactly when an add has reached it since it was last removed. -/
theorem entry_isSome_iff (calls : List ServiceCall) (pairName : String) (interval : OhlcvInterval) :
    ((run .returning pairSeparator calls).entry pairName interval).isSome ↔
      SinceLast (fun call => (call.reached pairSeparator pairName interval).isSome)
        (fun call => call.Removes pairSeparator pairName interval) calls := by
  induction calls using List.reverseRecOn with
  | nil => exact iff_of_false Bool.false_ne_true not_sinceLast_nil
  | append_singleton calls call ih =>
    rw [entry_run_concat, isSome_entryStep, sinceLast_concat, ih]

/-- The builder that is held is the one of the add that has made the entry, moved by the trades of
its pair since then. -/
theorem entry_run (calls : List ServiceCall) {builder : OhlcvFromTrades}
    (h : (run .returning pairSeparator calls).entry pairName interval = some builder) :
    ∃ before add after candle, calls = before ++ add :: after ∧
      (run .returning pairSeparator before).entry pairName interval = none ∧
      add.reached pairSeparator pairName interval = some candle ∧
      (∀ call ∈ after, ¬call.Removes pairSeparator pairName interval) ∧
      builder = (OhlcvFromTrades.ofCandle candle interval.toSeconds).run
        (after.flatMap (·.tradesOf pairName)) := by
  induction calls using List.reverseRecOn generalizing builder with
  | nil => cases h
  | append_singleton calls call ih =>
    rw [entry_run_concat] at h
    cases hentry : (run .returning pairSeparator calls).entry pairName interval with
    | none =>
      rw [hentry, entryStep_none, Option.map_eq_some_iff] at h
      obtain ⟨candle, hreached, rfl⟩ := h
      exact ⟨calls, call, [], candle, rfl, hentry, hreached, fun _ hmem => absurd hmem List.not_mem_nil,
        rfl⟩
    | some held =>
      by_cases hremoves : call.Removes pairSeparator pairName interval
      · rw [entryStep_of_removes hremoves] at h
        cases h
      · rw [hentry, entryStep_some hremoves] at h
        obtain ⟨before, add, after, candle, rfl, hnone, hreached, hkept, rfl⟩ := ih hentry
        refine ⟨before, add, after ++ [call], candle, by simp, hnone, hreached, ?_, ?_⟩
        · intro other hmem
          rcases List.mem_append.mp hmem with hmem | hmem
          · exact hkept other hmem
          · rw [List.mem_singleton.mp hmem]
            exact hremoves
        · rw [← Option.some.inj h, OhlcvFromTrades.run, OhlcvFromTrades.run, OhlcvFromTrades.run,
            ← List.foldl_append, List.flatMap_append, List.flatMap_singleton]

/-! ## What a trade publishes -/

/-- A trade of a pair throws exactly when no interval of the pair is held. -/
theorem update_ok_iff (h : s.NoneEmpty) (order : IntervalOrder) (pairName : String) (time : ℤ)
    (price volume : ℚ) :
    (s.perform .returning pairSeparator (.update order pairName time price volume)).1 = .ok () ↔
      ∃ interval, (s.entry pairName interval).isSome := by
  rw [← h.isSubscribed_iff]
  simp only [perform, OhlcvSubscriptionService.updateAll]
  by_cases hsubscribed : s.1.isSubscribed pairName = true
  · obtain ⟨hresult, _⟩ := updateLoop_spec h pairName time price volume order.nodup
    rw [if_pos hsubscribed]
    exact iff_of_true hresult hsubscribed
  · rw [if_neg hsubscribed]
    exact iff_of_false (fun heq => by cases heq) hsubscribed

/-- A trade publishes no candles of intervals that it does not reach. -/
private theorem tradedPublications_filter_of_notMem {time : ℤ} {price volume : ℚ}
    {intervals : List OhlcvInterval} (h : interval ∉ intervals) :
    (tradedPublications pairName time price volume s intervals).filter
      (fun p => p.pairName = pairName ∧ p.interval = interval) = [] := by
  rw [List.filter_eq_nil_iff]
  intro publication hmem
  obtain ⟨i, hi, hpublication⟩ := List.mem_filterMap.mp hmem
  obtain ⟨builder, _, rfl⟩ := Option.map_eq_some_iff.mp hpublication
  rw [decide_eq_true_eq]
  rintro ⟨_, rfl⟩
  exact h hi

/-- In a walk that meets every interval once, a builder is published once. -/
theorem tradedPublications_filter {time : ℤ} {price volume : ℚ} {builder : OhlcvFromTrades}
    (hentry : s.entry pairName interval = some builder) {intervals : List OhlcvInterval}
    (hnodup : intervals.Nodup) (hmem : interval ∈ intervals) :
    (tradedPublications pairName time price volume s intervals).filter
      (fun p => p.pairName = pairName ∧ p.interval = interval) =
        [⟨pairName, interval, (traded time price volume builder).1⟩] := by
  obtain ⟨front, back, rfl⟩ := List.append_of_mem hmem
  have hfront : interval ∉ front := fun hin =>
    List.disjoint_of_nodup_append hnodup hin List.mem_cons_self
  have hback : interval ∉ back := (List.nodup_cons.mp hnodup.of_append_right).1
  have hsplit : tradedPublications pairName time price volume s (front ++ interval :: back) =
      tradedPublications pairName time price volume s front ++
        ⟨pairName, interval, (traded time price volume builder).1⟩ ::
          tradedPublications pairName time price volume s back := by
    rw [tradedPublications, List.filterMap_append, List.filterMap_cons, hentry]
    rfl
  rw [hsplit, List.filter_append, List.filter_cons, tradedPublications_filter_of_notMem hfront,
    tradedPublications_filter_of_notMem hback, if_pos (by simp)]
  rfl

/-- For a builder that is held, a trade of its pair publishes one candle, that of the builder. -/
theorem update_publishes (h : s.NoneEmpty) {builder : OhlcvFromTrades}
    (hentry : s.entry pairName interval = some builder) (order : IntervalOrder) (time : ℤ)
    (price volume : ℚ) :
    ∃ publications,
      (s.step .returning pairSeparator (.update order pairName time price volume)).2 =
        s.2 ++ publications ∧
      publications.filter (fun p => p.pairName = pairName ∧ p.interval = interval) =
        [⟨pairName, interval, (traded time price volume builder).1⟩] := by
  have hsubscribed : s.1.isSubscribed pairName = true := by
    rw [h.isSubscribed_iff]
    exact ⟨interval, by rw [hentry, Option.isSome_some]⟩
  obtain ⟨_, _, hlog, _⟩ := updateLoop_spec h pairName time price volume order.nodup
  refine ⟨tradedPublications pairName time price volume s order.intervals, ?_, ?_⟩
  · simp only [step, perform, OhlcvSubscriptionService.updateAll]
    rw [if_pos hsubscribed]
    exact hlog
  · exact tradedPublications_filter hentry order.nodup (order.mem interval)

/-- The service is a family of candle builders. After every run an interval of a pair is held
exactly when an add has reached it since it was last removed; the pair is subscribed, and a trade of
it does not throw, exactly when one of its intervals is held; and what a trade then publishes for a
held interval is the candle of a builder of its own, seeded by the add that has made the entry and
given the trades of the pair since then. -/
theorem family_of_builders (pairSeparator : Char) (calls : List ServiceCall) :
    let s := run .returning pairSeparator calls
    (∀ pairName interval, (s.entry pairName interval).isSome ↔
      SinceLast (fun call => (call.reached pairSeparator pairName interval).isSome)
        (fun call => call.Removes pairSeparator pairName interval) calls) ∧
    (∀ pairName, s.1.isSubscribed pairName = true ↔
      ∃ interval, (s.entry pairName interval).isSome) ∧
    (∀ order pairName time price volume,
      (s.perform .returning pairSeparator (.update order pairName time price volume)).1 = .ok () ↔
        ∃ interval, (s.entry pairName interval).isSome) ∧
    ∀ pairName interval, (s.entry pairName interval).isSome →
      ∃ before add after candle, calls = before ++ add :: after ∧
        (run .returning pairSeparator before).entry pairName interval = none ∧
        add.reached pairSeparator pairName interval = some candle ∧
        (∀ call ∈ after, ¬call.Removes pairSeparator pairName interval) ∧
        ∀ order time price volume, ∃ publications,
          (s.step .returning pairSeparator (.update order pairName time price volume)).2 =
            s.2 ++ publications ∧
          publications.filter (fun p => p.pairName = pairName ∧ p.interval = interval) =
            [⟨pairName, interval,
              ((((OhlcvFromTrades.ofCandle candle interval.toSeconds).run
                (after.flatMap (·.tradesOf pairName))).addTrade time price volume).getOhlcv time).1⟩] := by
  have h := noneEmpty_run .returning pairSeparator calls
  refine ⟨entry_isSome_iff calls, h.isSubscribed_iff, update_ok_iff h, ?_⟩
  intro pairName interval hsome
  obtain ⟨builder, hentry⟩ := Option.isSome_iff_exists.mp hsome
  obtain ⟨before, add, after, candle, hcalls, hnone, hreached, hkept, hbuilder⟩ :=
    entry_run calls hentry
  refine ⟨before, add, after, candle, hcalls, hnone, hreached, hkept, ?_⟩
  intro order time price volume
  rw [← hbuilder]
  exact update_publishes h hentry order time price volume

end ServiceRun

end MarketBlocks
