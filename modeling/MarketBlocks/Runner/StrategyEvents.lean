import MarketBlocks.Runner.NoLookAhead

/-!
# The events of a strategy

A strategy decides what it does next by the replies to its calls. What its back test does is still a
run of the events of a back test: the notifications, the calls that move it, and the ends of the
rounds. Reading the market leaves no trace but the lookup cache, which nothing shows.
-/

namespace MarketBlocks

open Library PaperTradeApi

namespace BackTest

variable {κ : Type*} {moments : Set ℤ} {w v : BackTest}

/-- The events of a round. -/
def roundEvents (strategy : Strategy κ) (order : WalkOrder) (state : κ) (w : BackTest) : List Event :=
  .notify order ::
    match notify (order.walk w.subscriptions) w with
    | (.error _, _) => []
    | (.ok (), w) =>
      ((strategy state).calls answer w).filterMap ExchangeCall.event? ++
        match ((strategy state).run answer w).1.1 with
        | .ok () => [.finish none]
        | .error fault => if fault.isMbException then [.finish fault.what] else []

/-- The events of the loop of `run`. -/
def loopEvents (strategy : Strategy κ) : List WalkOrder → κ → BackTest → List Event
  | [], _, _ => []
  | order :: rest, state, w =>
    roundEvents strategy order state w ++
      match strategyRound strategy order state w with
      | (.error _, _, _) => []
      | (.ok (), state, w) => loopEvents strategy rest state w

namespace Alike

/-- A call moves the back test as its event does. -/
theorem move (h : Alike moments w v) (hnow : w.data.dataTime ∈ moments) (call : ExchangeCall) :
    Alike moments (BackTest.answer call w).2 (call.event?.toList.foldl step v) := by
  cases hevent : call.event? with
  | some event =>
    cases call with
    | trade =>
      cases hevent
      exact (h.answer hnow _).2
    | subscribe subscription | unsubscribe subscription =>
      rw [ExchangeCall.event?] at hevent
      split at hevent
      · next hhashes =>
        cases hevent
        refine (congrArg (Alike moments _) ?_).mpr (h.answer hnow _).2
        rw [BackTest.answer, if_pos hhashes]
        rfl
      · cases hevent
    | _ => cases hevent
  | none =>
    rcases answer_cases h.steady.cache call with ⟨-, data, hmoment, hnext⟩ | ⟨trade, hsome, -⟩ |
      ⟨event, subscriptions, hsome, -⟩
    · rw [hnext]
      exact h.sameMoment hmoment (.refl h.steady'.cache)
    · rw [hevent] at hsome
      cases hsome
    · rw [hevent] at hsome
      cases hsome

/-- A program of calls moves the back test as the events among them do. -/
theorem moves (h : Alike moments w v) (hnow : w.data.dataTime ∈ moments) {α : Type*}
    (program : Interaction ExchangeCall (Except Fault ExchangeReply) α) :
    Alike moments (program.run BackTest.answer w).2
      (((program.calls BackTest.answer w).filterMap ExchangeCall.event?).foldl step v) := by
  induction program generalizing w v with
  | done value => exact h
  | call input next ih =>
    have hlater := ih (BackTest.answer input w).1 (h.move hnow input)
      ((h.steady.answer input).2.dataTime.symm ▸ hnow)
    rw [Interaction.run, Interaction.calls]
    cases hevent : input.event? with
    | none =>
      rw [List.filterMap_cons_none hevent]
      simpa [hevent] using hlater
    | some event =>
      rw [List.filterMap_cons_some hevent]
      simpa [hevent] using hlater

/-- A notification is an event. -/
theorem notified (h : Alike moments w v) (hnow : w.data.dataTime ∈ moments) (order : WalkOrder) :
    Alike moments (BackTest.notify (order.walk w.subscriptions) w).2 (v.step (.notify order)) :=
  (h.notify hnow order).2

/-- A round moves the back test as its events do. -/
theorem roundEvents (h : Alike moments w v) (hnow : w.data.dataTime ∈ moments) (strategy : Strategy κ)
    (order : WalkOrder) (state : κ) :
    Alike moments (BackTest.strategyRound strategy order state w).2.2
      ((BackTest.roundEvents strategy order state w).foldl step v) := by
  have hnotified := h.notified hnow order
  have hstill := (h.steady.notify order).2.1.dataTime
  unfold BackTest.strategyRound BackTest.roundEvents
  rw [List.foldl_cons]
  rcases hnotify : BackTest.notify (order.walk w.subscriptions) w with ⟨fault | value, w₁⟩
  · rw [hnotify] at hnotified
    exact hnotified
  · rw [hnotify] at hnotified hstill
    have hmoved := hnotified.moves (hstill ▸ hnow) (strategy state)
    rcases hrun : (strategy state).run BackTest.answer w₁ with ⟨⟨fault | value, kept⟩, w₂⟩
    · rw [hrun] at hmoved
      by_cases hcaught : fault.isMbException
      · simpa [hrun, hcaught, List.foldl_append] using hmoved.finish fault.what
      · simpa [hrun, hcaught] using hmoved
    · rw [hrun] at hmoved
      simpa [hrun, List.foldl_append] using hmoved.finish none

/-- A loop moves the back test as its events do. -/
theorem loopEvents (h : Alike Set.univ w v) (strategy : Strategy κ) (orders : List WalkOrder)
    (state : κ) :
    Alike Set.univ (BackTest.strategyLoop strategy orders state w).2.2
      ((BackTest.loopEvents strategy orders state w).foldl step v) := by
  induction orders generalizing w v state with
  | nil => exact h
  | cons order rest ih =>
    have hround := h.roundEvents (Set.mem_univ _) strategy order state
    unfold BackTest.strategyLoop BackTest.loopEvents
    rw [List.foldl_append]
    rcases hresult : BackTest.strategyRound strategy order state w with ⟨fault | value, kept, w'⟩
    · rw [hresult] at hround
      exact hround
    · rw [hresult] at hround
      exact ih hround kept

end Alike

/-- The back test of any strategy is a run of events: it ends where they end, in everything but the
lookup cache and the data that it has loaded, and every moment of the data shows the same in both. -/
theorem strategyLoop_eq_events (strategy : Strategy κ) (config : PaperTradingConfig)
    (data : BackTestingData) (hcache : data.iteratorCache = ∅) (hstep : 0 ≤ data.stepSize)
    (orders : List WalkOrder) (state : κ) :
    let start := BackTest.create config data
    Alike Set.univ (strategyLoop strategy orders state start).2.2
      ((loopEvents strategy orders state start).foldl step start) :=
  (Alike.refl (Steady.create config hcache hstep).1).loopEvents strategy orders state

/-- Three rounds with two orders are eight events. -/
theorem strategyLoop_eq_events_buyLow :
    let pair : TradablePair := ⟨"BTC", "GBP"⟩
    let inOrder : WalkOrder := ⟨id, fun _ => List.Perm.refl _⟩
    let orders := [inOrder, inOrder, inOrder]
    let candles : List OhlcvData := [⟨60, 20, 20, 20, 20, 1⟩, ⟨120, 9, 9, 9, 9, 1⟩]
    let data := BackTestingData.create [pair] ((∅ : UnorderedMap _ _).insert pair candles) 60 120 60 3
    let start := BackTest.create ⟨0, [("GBP", 100)]⟩ data
    let events := loopEvents (buyLow pair) orders 0 start
    events.length = 8 ∧ Alike Set.univ (strategyLoop (buyLow pair) orders 0 start).2.2
      (events.foldl step start) := by
  intro pair inOrder orders candles data start events
  have hlength : (loopEvents (buyLow pair) orders 0 start).length = 8 := by decide +kernel
  exact ⟨hlength,
    strategyLoop_eq_events (buyLow pair) ⟨0, [("GBP", 100)]⟩ data rfl (by decide) orders 0⟩

end BackTest

end MarketBlocks
