import Mathlib.Data.List.Induction
import MarketBlocks.Runner.LiveTestRunner
import MarketBlocks.Runner.Watching

/-!
# When the trades file is complete

The back test runner flushes only behind a strategy call that returns. An order that closes in a
round whose strategy call raises is written by the next flush, and there is none after the last
round. The live test runner flushes once more before its report, so it misses only the orders that
close behind this flush.
-/

namespace MarketBlocks

open Library

namespace BackTest

/-! ## Rounds with all that a strategy does -/

/-- What a strategy does in a round: calls of its account and of the stream. -/
inductive StrategyAction where
  | call (call : StrategyCall)
  | subscribe (subscription : WebsocketSubscription)
  | unsubscribe (subscription : WebsocketSubscription)

/-- An action as an event of the back test. -/
def StrategyAction.toEvent : StrategyAction → Event
  | .call strategyCall => Event.call strategyCall
  | .subscribe subscription => Event.subscribe subscription
  | .unsubscribe subscription => Event.unsubscribe subscription

/-- One round as the strategy and the set of subscriptions decide it. -/
structure Turn where
  order : WalkOrder
  actions : List StrategyAction
  raises : Option String

/-- One round of the loop of `run`. -/
def turn (w : BackTest) (t : Turn) : Except Fault Unit × BackTest :=
  match notify (t.order.walk w.subscriptions) w with
  | (.error fault, w) => (.error fault, w)
  | (.ok (), w) => (.ok (), step ((t.actions.map StrategyAction.toEvent).foldl step w) (.finish t.raises))

/-- The loop of `run`. -/
def runTurns : List Turn → BackTest → Except Fault Unit × BackTest
  | [], w => (.ok (), w)
  | t :: rest, w =>
    match turn w t with
    | (.error fault, w) => (.error fault, w)
    | (.ok (), w) => runTurns rest w

/-- `run` for a strategy that may also use the stream. -/
def runStrategy (turns : ℕ → Turn) (w : BackTest) : Except Fault TestReport × BackTest :=
  match runTurns ((List.range w.data.timeSteps.toNat).map turns) w with
  | (.error fault, w) => (.error fault, w)
  | (.ok (), w) => (.ok (generateBackTestReport w.data [w.api]), w)

/-- A strategy that only calls its account. -/
def Turn.ofIteration (iteration : Iteration) : Turn where
  order := iteration.order
  actions := iteration.calls.map StrategyAction.call
  raises := iteration.raises

/-- A turn without exceptions is a round of the loop. -/
theorem turn_ofIteration (w : BackTest) (iteration : Iteration) :
    turn w (.ofIteration iteration) = round w iteration := by
  have hcalls (w : BackTest) :
      ((iteration.calls.map StrategyAction.call).map StrategyAction.toEvent).foldl step w =
        iteration.calls.foldl performCall w := by
    rw [List.map_map, List.foldl_map]
    rfl
  simp only [turn, round, Turn.ofIteration, hcalls]
  rfl

/-- Turns without exceptions are rounds of the loop. -/
theorem runTurns_ofIteration (iterations : List Iteration) (times : List ℤ) (w : BackTest) :
    runTurns (iterations.map .ofIteration) w =
      ((runLoop iterations times w).1, (runLoop iterations times w).2.2) := by
  induction iterations generalizing times w with
  | nil => rfl
  | cons iteration rest ih =>
    rw [List.map_cons, runTurns, runLoop, turn_ofIteration]
    rcases round w iteration with ⟨fault | _, w'⟩
    · rfl
    · exact ih _ w'

/-- For such a strategy the run is the one of the runner. -/
theorem runStrategy_ofIteration (iterations : ℕ → Iteration) (w : BackTest) :
    runStrategy (fun k => .ofIteration (iterations k)) w =
      ((run iterations w).1, (run iterations w).2.2) := by
  have hturns := runTurns_ofIteration ((List.range w.data.timeSteps.toNat).map iterations) [] w
  rw [List.map_map] at hturns
  rw [runStrategy, run, ← Function.comp_def Turn.ofIteration iterations, hturns]
  rcases runLoop ((List.range w.data.timeSteps.toNat).map iterations) [] w with ⟨fault | _, times, w'⟩
  · rfl
  · rfl

/-! ## What a round does to the trades file -/

/-- The trades file is as far as its index. -/
def Flushed (w : BackTest) : Prop := w.logger.Flushed [w.api]

/-- All closed orders are written. -/
def Written (w : BackTest) : Prop := w.logger.indexOf 0 = w.api.closedOrders.length

variable {w w' : BackTest} {t : Turn} {turns : List Turn}

/-- The file is complete when every closed order has been written to it. -/
theorem Flushed.complete_iff (h : w.Flushed) : w.logger.Complete [w.api] ↔ w.Written := by
  rw [TestLogger.Flushed.complete_iff h]
  constructor
  · intro hall
    exact hall 0
  · intro hwritten k
    cases k with
    | zero => exact hwritten
    | succ k => exact Nat.le_zero.mp (h.index_le (k + 1))

/-- The calls so far have left the logger alone and only closed orders. -/
structure Grows (w w' : BackTest) : Prop where
  logger : w'.logger = w.logger
  closed : w.api.closedOrders <+: w'.api.closedOrders

/-- Nothing has been closed. -/
theorem Grows.refl (w : BackTest) : Grows w w := ⟨rfl, List.prefix_rfl⟩

/-- One growth after the other. -/
theorem Grows.trans {w'' : BackTest} (h : Grows w w') (h' : Grows w' w'') : Grows w w'' :=
  ⟨h'.logger.trans h.logger, h.closed.trans h'.closed⟩

/-- What was flushed stays flushed. -/
theorem Grows.flushed (hgrows : Grows w w') (h : w.Flushed) : w'.Flushed := by
  rw [Flushed, hgrows.logger]
  refine TestLogger.Flushed.grow h rfl fun k => ?_
  cases k with
  | zero => exact hgrows.closed
  | succ k => exact List.prefix_rfl

/-- A notification of one subscription takes back no closed order. -/
theorem grows_notifyOne (subscription : UniqueWebsocketSubscription) (w : BackTest) :
    Grows w (notifyOne subscription w).2 := by
  rw [notifyOne]
  cases subscription.channel with
  | trade =>
    simp only
    split
    · exact ⟨rfl, List.prefix_rfl⟩
    · exact ⟨rfl, PaperTradeApi.tradeUpdateHandler_closedOrders _ w.api⟩
  | ohlcv => exact .refl w
  | orderBook => exact .refl w

/-- A notification of any subscriptions takes back no closed order. -/
theorem grows_notify (subscriptions : List UniqueWebsocketSubscription) (w : BackTest) :
    Grows w (notify subscriptions w).2 := by
  induction subscriptions generalizing w with
  | nil => exact .refl w
  | cons subscription rest ih =>
    have hone := grows_notifyOne subscription w
    rw [notify]
    rcases hnotify : notifyOne subscription w with ⟨fault | value, w'⟩
    · rw [hnotify] at hone
      exact hone
    · rw [hnotify] at hone
      exact hone.trans (ih w')

/-- A call of the account takes back no closed order. -/
theorem grows_performCall (w : BackTest) (call : StrategyCall) : Grows w (performCall w call) := by
  have hclosed : w.api.closedOrders <+: (w.api.perform w.feed call.toCall).2.closedOrders :=
    PaperTradeApi.perform_closedOrders call.toCall w.api
  rw [performCall]
  cases call.toCall.request? with
  | none => exact ⟨rfl, hclosed⟩
  | some request => exact ⟨rfl, hclosed⟩

/-- The actions of a strategy take back no closed order. -/
theorem grows_actions (actions : List StrategyAction) (w : BackTest) :
    Grows w ((actions.map StrategyAction.toEvent).foldl step w) := by
  induction actions generalizing w with
  | nil => exact .refl w
  | cons action rest ih =>
    have hstep : Grows w (step w action.toEvent) := by
      cases action with
      | call call => exact grows_performCall w call
      | subscribe subscription => exact ⟨rfl, List.prefix_rfl⟩
      | unsubscribe subscription => exact ⟨rfl, List.prefix_rfl⟩
    exact hstep.trans (ih _)

/-- A round keeps the state of the file. It writes everything when the strategy call returns, and
nothing when it raises. -/
theorem turn_spec (h : w.Flushed) (hok : (turn w t).1 = .ok ()) :
    (turn w t).2.Flushed ∧ w.api.closedOrders <+: (turn w t).2.api.closedOrders ∧
      (t.raises = none → (turn w t).2.Written) ∧
      (t.raises.isSome → (turn w t).2.logger = w.logger) := by
  have hnotify := grows_notify (t.order.walk w.subscriptions) w
  rw [turn] at hok ⊢
  rcases hresult : notify (t.order.walk w.subscriptions) w with ⟨fault | value, w'⟩
  · rw [hresult] at hok
    cases hok
  · rw [hresult] at hnotify
    have hgrows := hnotify.trans (grows_actions t.actions w')
    have hflushed := hgrows.flushed h
    cases hraises : t.raises with
    | some message =>
      refine ⟨hflushed, hgrows.closed, ?_, fun _ => hgrows.logger⟩
      intro hnone
      cases hnone
    | none =>
      have hnext := TestLogger.Flushed.flushNext hflushed 0
      have hindex := TestLogger.Flushed.indexOf_flushNext hflushed 0
      have hflush := TestLogger.flushTrades_eq_flushNext hflushed.length
      refine ⟨?_, hgrows.closed, ?_, ?_⟩
      · rw [Flushed]
        simp only [step, hflush]
        exact hnext
      · intro _
        rw [Written]
        simp only [step, hflush]
        exact hindex 0
      · intro hsome
        cases hsome

/-- The state after some rounds. -/
def after (w : BackTest) (turns : List Turn) : BackTest := turns.foldl (fun w t => (turn w t).2) w

/-- The state after one more turn. -/
theorem after_concat (w : BackTest) (turns : List Turn) (t : Turn) :
    w.after (turns ++ [t]) = (turn (w.after turns) t).2 := by
  rw [after, List.foldl_append]
  rfl

/-- A run that returns has got through all its rounds. -/
theorem runTurns_ok (h : (runTurns turns w).1 = .ok ()) :
    (runTurns turns w).2 = w.after turns ∧
      EveryStep (fun w t => (turn w t).2) (fun w t => (turn w t).1 = .ok ()) w turns := by
  induction turns generalizing w with
  | nil => exact ⟨rfl, trivial⟩
  | cons t rest ih =>
    rw [runTurns] at h ⊢
    rcases hturn : turn w t with ⟨fault | value, w'⟩
    · rw [hturn] at h
      cases h
    · rw [hturn] at h
      obtain ⟨hstate, hsteps⟩ := ih h
      simp only [EveryStep, after, List.foldl_cons, hturn]
      exact ⟨hstate, trivial, hsteps⟩

/-- Every round from which on the strategy keeps raising closes no order. -/
def QuietTail (w : BackTest) (turns : List Turn) : Prop :=
  ((∀ t ∈ turns, t.raises.isSome) → w.api.closedOrders = []) ∧
    ∀ before t later, turns = before ++ t :: later → (∀ t' ∈ t :: later, t'.raises.isSome) →
      (w.after (before ++ [t])).api.closedOrders = (w.after before).api.closedOrders

/-- A last round that raises must be quiet, like the ones before it. -/
theorem quietTail_concat (hraises : t.raises.isSome) :
    w.QuietTail (turns ++ [t]) ↔
      w.QuietTail turns ∧
        (w.after (turns ++ [t])).api.closedOrders = (w.after turns).api.closedOrders := by
  constructor
  · rintro ⟨hstart, htail⟩
    refine ⟨⟨fun hall => hstart ?_, fun before t' later heq hall => ?_⟩, ?_⟩
    · intro t' ht'
      rcases List.mem_append.mp ht' with hmem | hmem
      · exact hall t' hmem
      · rw [List.mem_singleton.mp hmem]
        exact hraises
    · apply htail before t' (later ++ [t])
      · rw [heq, List.append_assoc]
        rfl
      · intro t'' ht''
        rw [← List.cons_append] at ht''
        rcases List.mem_append.mp ht'' with hmem | hmem
        · exact hall t'' hmem
        · rw [List.mem_singleton.mp hmem]
          exact hraises
    · apply htail turns t [] rfl
      intro t' ht'
      rw [List.mem_singleton.mp ht']
      exact hraises
  · rintro ⟨⟨hstart, htail⟩, hlast⟩
    refine ⟨fun hall => hstart fun t' ht' => hall t' (List.mem_append_left _ ht'), ?_⟩
    intro before t' later heq hall
    rcases List.eq_nil_or_concat later with rfl | ⟨later', last, rfl⟩
    · obtain ⟨rfl, hsame⟩ := List.append_inj' heq rfl
      cases hsame
      exact hlast
    · rw [List.concat_eq_append, ← List.cons_append, ← List.append_assoc] at heq
      obtain ⟨hturns, hsame⟩ := List.append_inj' heq rfl
      refine htail before t' later' hturns fun t'' ht'' => hall t'' ?_
      rw [List.concat_eq_append, ← List.cons_append]
      exact List.mem_append_left _ ht''

/-- After the rounds of a run everything is written exactly when its tail is quiet. -/
theorem after_written_iff (h : w.Flushed) (hfresh : w.logger.indexOf 0 = 0)
    (hsteps : EveryStep (fun w t => (turn w t).2) (fun w t => (turn w t).1 = .ok ()) w turns) :
    (w.after turns).Flushed ∧ ((w.after turns).Written ↔ w.QuietTail turns) := by
  induction turns using List.reverseRecOn with
  | nil =>
    refine ⟨h, ?_⟩
    rw [Written, after, List.foldl_nil, hfresh]
    constructor
    · intro hzero
      refine ⟨fun _ => List.length_eq_zero_iff.mp hzero.symm, fun before t later heq => ?_⟩
      exact absurd heq.symm (List.append_ne_nil_of_right_ne_nil _ (List.cons_ne_nil _ _))
    · intro hquiet
      rw [hquiet.1 (by simp)]
      rfl
  | append_singleton turns t ih =>
    rw [everyStep_append] at hsteps
    obtain ⟨hflushed, hiff⟩ := ih hsteps.1
    have hok : (turn (w.after turns) t).1 = .ok () := hsteps.2.1
    obtain ⟨hnext, hclosed, hreturns, hraises⟩ := turn_spec hflushed hok
    rw [← after_concat] at hnext hclosed hreturns hraises
    refine ⟨hnext, ?_⟩
    cases hcase : t.raises with
    | none =>
      -- the flush of the last round writes everything, and no tail keeps raising
      have hnot : ∀ l : List Turn, t ∈ l → ¬ ∀ t' ∈ l, t'.raises.isSome := by
        intro l hmem hall
        have hsome := hall t hmem
        rw [hcase] at hsome
        cases hsome
      refine iff_of_true (hreturns hcase) ⟨fun hall => absurd hall (hnot _ (by simp)), ?_⟩
      intro before t' later heq hall
      refine absurd hall (hnot _ ?_)
      have hlast := congrArg List.getLast? heq
      rw [List.getLast?_append_cons, List.getLast?_append_cons] at hlast
      exact List.mem_of_getLast? (hlast ▸ rfl)
    | some message =>
      have hsome : t.raises.isSome := by
        rw [hcase]
        rfl
      have hindex := congrArg (TestLogger.indexOf · 0) (hraises hsome)
      have hle : (w.after turns).logger.indexOf 0 ≤ (w.after turns).api.closedOrders.length :=
        hflushed.index_le 0
      have hgrown := hclosed.length_le
      rw [quietTail_concat hsome, ← hiff, Written, Written]
      rw [hindex]
      constructor
      · intro hwritten
        exact ⟨by omega, (hclosed.eq_of_length (by omega)).symm⟩
      · rintro ⟨hwritten, hsame⟩
        rw [hwritten, hsame]

/-- The state in which `run` has created its logger. -/
def start (data : BackTestingData) (subscriptions : List UniqueWebsocketSubscription)
    (api : PaperTradeApi) : BackTest := ⟨data, subscriptions, api, .create 1⟩

/-- The trades file of a back test that returns is complete exactly when every round from which on
the strategy keeps raising closes no order. -/
theorem runStrategy_complete_iff (data : BackTestingData)
    (subscriptions : List UniqueWebsocketSubscription) (api : PaperTradeApi) (turns : ℕ → Turn)
    {report : TestReport} {w : BackTest}
    (h : runStrategy turns (start data subscriptions api) = (.ok report, w)) :
    w.logger.Complete [w.api] ↔
      (start data subscriptions api).QuietTail ((List.range data.timeSteps.toNat).map turns) := by
  have hstart : (start data subscriptions api).Flushed := TestLogger.flushed_create [api]
  rw [runStrategy] at h
  rcases hrun : runTurns ((List.range data.timeSteps.toNat).map turns)
    (start data subscriptions api) with ⟨fault | value, w'⟩
  · have herror : runTurns ((List.range (start data subscriptions api).data.timeSteps.toNat).map turns)
        (start data subscriptions api) = (.error fault, w') := hrun
    rw [herror] at h
    cases h
  · have hreturned : runTurns ((List.range (start data subscriptions api).data.timeSteps.toNat).map turns)
        (start data subscriptions api) = (.ok value, w') := hrun
    rw [hreturned] at h
    cases h
    obtain ⟨hstate, hsteps⟩ := runTurns_ok (congrArg Prod.fst hrun)
    obtain ⟨hflushed, hiff⟩ := after_written_iff hstart rfl hsteps
    rw [hrun] at hstate
    rw [← hstate] at hflushed hiff
    rw [hflushed.complete_iff, hiff]

/-- The trades file of a run in which the strategy only calls its account is complete exactly when
every round from which on the strategy keeps raising closes no order. -/
theorem run_complete_iff (data : BackTestingData) (subscriptions : List UniqueWebsocketSubscription)
    (api : PaperTradeApi) (iterations : ℕ → Iteration) {report : TestReport} {times : List ℤ}
    {w : BackTest} (h : run iterations (start data subscriptions api) = (.ok report, times, w)) :
    w.logger.Complete [w.api] ↔ (start data subscriptions api).QuietTail
      ((List.range data.timeSteps.toNat).map fun k => .ofIteration (iterations k)) := by
  have hreturned : runStrategy (fun k => .ofIteration (iterations k)) (start data subscriptions api) =
      (.ok report, w) := by
    rw [runStrategy_ofIteration, h]
  exact runStrategy_complete_iff data subscriptions api _ hreturned

end BackTest

/-- When the report is generated the trades file holds one row for each closed order, in the order
they were closed: in a back test exactly when every round from which on the strategy keeps raising
closes no order, in a live test exactly when no order closes behind the last flush of its
exchange. -/
theorem tradesFile_complete_iff (data : BackTestingData)
    (subscriptions : List UniqueWebsocketSubscription) (api : PaperTradeApi)
    (turns : ℕ → BackTest.Turn) (apis : List PaperTradeApi) (rounds : List LiveRound)
    (stopping : List AccountCall) (meanwhile : ℕ → List AccountCall) :
    (∀ report w, BackTest.runStrategy turns (.start data subscriptions api) = (.ok report, w) →
        (w.logger.Complete [w.api] ↔ (BackTest.start data subscriptions api).QuietTail
          ((List.range data.timeSteps.toNat).map turns))) ∧
      ((LiveTest.run rounds stopping meanwhile (.start apis)).logger.Complete
          (LiveTest.run rounds stopping meanwhile (.start apis)).apis ↔
        LiveTest.FlushedLast meanwhile (LiveTest.runLoop rounds stopping (.start apis))) := by
  constructor
  · intro report w h
    exact BackTest.runStrategy_complete_iff data subscriptions api turns h
  · exact (LiveTest.flushed_runLoop apis rounds stopping).complete_flushTrades_iff

/-- In three rounds the strategy raises in the second one, after its order has been filled. -/
theorem tradesFile_complete_raising :
    let pair : TradablePair := ⟨"BTC", "GBP"⟩
    let candles : List OhlcvData := [⟨60, 20, 20, 20, 20, 1⟩, ⟨120, 9, 9, 9, 9, 1⟩, ⟨180, 5, 5, 5, 5, 1⟩]
    let data := BackTestingData.create [pair] ((∅ : UnorderedMap _ _).insert pair candles) 60 180 60 3 none
    let turns (k : ℕ) : BackTest.Turn :=
      ⟨⟨id, List.Perm.refl⟩, if k = 1 then [.call (.addOrder (createMarketOrder pair .buy 2))] else [],
        if k = 1 then some "Insufficient funds (GBP)" else none⟩
    (BackTest.start data [] (.create ⟨1 / 10, [("GBP", 100)]⟩)).QuietTail
      ((List.range data.timeSteps.toNat).map turns) := by
  intro pair candles data turns
  have hreport : (BackTest.runStrategy turns (.start data [] (.create ⟨1 / 10, [("GBP", 100)]⟩))).1 =
      .ok ⟨60, 180, 60, 3, 1⟩ := by decide +kernel
  have hfile : (BackTest.runStrategy turns
        (.start data [] (.create ⟨1 / 10, [("GBP", 100)]⟩))).2.logger.tradesFile =
      (BackTest.runStrategy turns
        (.start data [] (.create ⟨1 / 10, [("GBP", 100)]⟩))).2.api.closedOrders := by decide +kernel
  have hiff := (tradesFile_complete_iff data [] (.create ⟨1 / 10, [("GBP", 100)]⟩) turns [] [] []
    fun _ => []).1
  -- only these two facts about the run are needed, not how it is computed
  generalize BackTest.runStrategy turns (.start data [] (.create ⟨1 / 10, [("GBP", 100)]⟩)) = result
    at hreport hfile hiff
  obtain ⟨report, w⟩ := result
  have hcomplete : w.logger.Complete [w.api] := TestLogger.complete_singleton_iff.mpr hfile
  cases hreport
  exact (hiff _ w rfl).mp hcomplete

/-- The last of two rounds fills a market order and raises: the report counts one trade, and the trades
file has no row. -/
theorem tradesFile_misses_trade :
    let pair : TradablePair := ⟨"BTC", "GBP"⟩
    let candles : List OhlcvData := [⟨60, 20, 20, 20, 20, 1⟩, ⟨120, 9, 9, 9, 9, 1⟩]
    let data := BackTestingData.create [pair] ((∅ : UnorderedMap _ _).insert pair candles) 60 120 60 2 none
    let turns (k : ℕ) : BackTest.Turn :=
      ⟨⟨id, List.Perm.refl⟩, if k = 1 then [.call (.addOrder (createMarketOrder pair .buy 2))] else [],
        if k = 1 then some "Insufficient funds (GBP)" else none⟩
    let w := BackTest.start data [] (.create ⟨1 / 10, [("GBP", 100)]⟩)
    (BackTest.runStrategy turns w).1 = .ok ⟨60, 120, 60, 2, 1⟩ ∧
      (BackTest.runStrategy turns w).2.api.closedOrders.length = 1 ∧
      (BackTest.runStrategy turns w).2.logger.tradesFile = [] ∧
      ¬ (BackTest.runStrategy turns w).2.logger.Complete [(BackTest.runStrategy turns w).2.api] := by
  intro pair candles data turns w
  have hclosed : (BackTest.runStrategy turns w).2.api.closedOrders.length = 1 := by decide +kernel
  have hfile : (BackTest.runStrategy turns w).2.logger.tradesFile = [] := by decide +kernel
  refine ⟨by decide +kernel, hclosed, hfile, fun hcomplete => ?_⟩
  rw [TestLogger.complete_singleton_iff, hfile] at hcomplete
  rw [← hcomplete] at hclosed
  cases hclosed

end MarketBlocks
