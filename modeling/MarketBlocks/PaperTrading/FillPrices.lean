import MarketBlocks.PaperTrading.Executions

/-!
# Fill prices and the market

An order is filled at the last trade, or at a price of its own. The price of a limit order is no
better than the market when it fills. The price of a stop-loss order is no worse: when the market
jumps over it, the order fills at a price at which nobody trades any more, while a trailing order
fills at the market.
-/

namespace MarketBlocks

open Library

/-- A fill at a better price than the market's: a buyer pays less, a seller gets more. -/
def BeatsMarket (action : TradeAction) (fillPrice price : ℚ) : Prop :=
  match action with
  | .buy => fillPrice < price
  | .sell => price < fillPrice

/-- A stop price that the market has gone past: above that of a buyer, below that of a seller. -/
def JumpsStop (request : OrderRequest) (price : ℚ) : Prop :=
  match request.action with
  | .buy => request.get .stopPrice < price
  | .sell => price < request.get .stopPrice

variable {request : OrderRequest} {price : ℚ}

/-- The market price does not beat itself. -/
theorem not_beatsMarket_self (action : TradeAction) (price : ℚ) : ¬BeatsMarket action price price := by
  cases action <;> exact lt_irrefl price

/-- The limit of an order that is due does not beat the market. -/
private theorem not_beatsMarket_of_limit (hclose : shouldCloseLimitOrder request price = true) :
    ¬BeatsMarket request.action (request.get .assetPrice) price := by
  unfold shouldCloseLimitOrder at hclose
  unfold BeatsMarket
  cases haction : request.action with
  | buy =>
    simp only [haction, decide_true, Bool.true_and, reduceCtorEq, decide_false, Bool.false_and,
      Bool.or_false, decide_eq_true_eq] at hclose
    exact not_lt.mpr hclose
  | sell =>
    simp only [haction, decide_true, Bool.true_and, reduceCtorEq, decide_false, Bool.false_and,
      Bool.false_or, decide_eq_true_eq] at hclose
    exact not_lt.mpr hclose

/-- A stop price that the market has gone past closes the order, and beats the market. -/
private theorem stopLoss_beatsMarket_iff :
    shouldCloseStopLossOrder request price = true ∧
        BeatsMarket request.action (request.get .stopPrice) price ↔ JumpsStop request price := by
  unfold shouldCloseStopLossOrder BeatsMarket JumpsStop
  cases haction : request.action with
  | buy =>
    simp only [decide_true, Bool.true_and, reduceCtorEq, decide_false, Bool.false_and, Bool.or_false,
      decide_eq_true_eq]
    exact and_iff_right_of_imp le_of_lt
  | sell =>
    simp only [decide_true, Bool.true_and, reduceCtorEq, decide_false, Bool.false_and, Bool.false_or,
      decide_eq_true_eq]
    exact and_iff_right_of_imp le_of_lt

/-- Only a stop-loss order whose stop price the market has gone past beats the market. -/
theorem triggerPrice_beatsMarket_iff (stored : Option ℚ) :
    (∃ fillPrice, triggerPrice request stored price = some fillPrice ∧
        BeatsMarket request.action fillPrice price) ↔
      request.orderType = .stopLoss ∧ JumpsStop request price := by
  unfold triggerPrice
  have hmarket (fillPrice : ℚ) (h : some price = some fillPrice) :
      ¬BeatsMarket request.action fillPrice price :=
    Option.some.inj h ▸ not_beatsMarket_self request.action price
  cases htype : request.orderType with
  | market => exact iff_of_false (fun ⟨_, h, hbeats⟩ => hmarket _ h hbeats) (fun h => nomatch h.1)
  | limit =>
    refine iff_of_false ?_ (fun h => nomatch h.1)
    rintro ⟨fillPrice, h, hbeats⟩
    obtain ⟨hclose, rfl⟩ := Option.ite_some_none_eq_some.mp h
    exact not_beatsMarket_of_limit hclose hbeats
  | stopLoss =>
    rw [and_iff_right rfl, ← stopLoss_beatsMarket_iff]
    constructor
    · rintro ⟨fillPrice, h, hbeats⟩
      obtain ⟨hclose, rfl⟩ := Option.ite_some_none_eq_some.mp h
      exact ⟨hclose, hbeats⟩
    · intro ⟨hclose, hbeats⟩
      exact ⟨_, if_pos hclose, hbeats⟩
  | trailingStopLoss =>
    refine iff_of_false ?_ (fun h => nomatch h.1)
    rintro ⟨fillPrice, h, hbeats⟩
    exact hmarket fillPrice (congrArg some (Option.ite_some_none_eq_some.mp h).2) hbeats
  | takeProfit => exact iff_of_false (fun ⟨_, h, _⟩ => nomatch h) (fun h => nomatch h.1)

namespace Evaluation

/-- If `execute_order` is called, it does not receive a price that beats the market. -/
def KeepsToMarket (e : Evaluation) : Prop :=
  ∀ fillPrice, e.executionPrice = some fillPrice → ¬BeatsMarket e.request.action fillPrice e.price

/-- A stop-loss order meets a last trade that has gone past its stop price. -/
def MeetsJump (e : Evaluation) : Prop :=
  e.request.orderType = .stopLoss ∧ e.price ≠ 0 ∧ JumpsStop e.request e.price

/-- An evaluation keeps to the market exactly when the price has not jumped over a stop. -/
theorem keepsToMarket_iff (e : Evaluation) : e.KeepsToMarket ↔ ¬e.MeetsJump := by
  by_cases hprice : e.price = 0
  · have hnone : e.executionPrice = none := if_pos hprice
    refine iff_of_true (fun fillPrice h => ?_) fun h => h.2.1 hprice
    rw [hnone] at h
    cases h
  · have htrigger : e.executionPrice =
        triggerPrice e.request (e.api.trailingOrderLimits.lookup e.id) e.price := if_neg hprice
    rw [KeepsToMarket, MeetsJump, and_iff_right hprice,
      ← triggerPrice_beatsMarket_iff (e.api.trailingOrderLimits.lookup e.id), htrigger]
    simp only [not_exists, not_and]

end Evaluation

namespace Session

/-- No execution of a session beats the market exactly when no stop-loss order of the session is
evaluated at a last trade past its stop price. -/
theorem run_keepsToMarket_iff (config : PaperTradingConfig) (inputs : List (Feed × Call)) :
    (∀ e ∈ runEvaluations config inputs, e.KeepsToMarket) ↔
      ∀ e ∈ runEvaluations config inputs, ¬e.MeetsJump := by
  simp only [Evaluation.keepsToMarket_iff]

/-- The last trade jumps from 20 to 50 over the stop price of a buyer, who pays 40. -/
theorem evaluations_jumped_stop :
    ¬∀ e ∈ runEvaluations ⟨1 / 10, [("GBP", 100)]⟩
        [(Feed.quote 20, .addOrder (createStopLossOrder ⟨"BTC", "GBP"⟩ .buy 40 1)),
          (Feed.quote 50, .tradeUpdate ⟨"BTC", "GBP"⟩)], e.KeepsToMarket := by
  intro hkeeps
  have htrace : (runEvaluations ⟨1 / 10, [("GBP", 100)]⟩
      [(Feed.quote 20, .addOrder (createStopLossOrder ⟨"BTC", "GBP"⟩ .buy 40 1)),
        (Feed.quote 50, .tradeUpdate ⟨"BTC", "GBP"⟩)]).map
          (fun e => (e.request.action, e.executionPrice, e.price)) =
        [(.buy, none, 20), (.buy, some 40, 50)] := by decide +kernel
  have hlast : (TradeAction.buy, some (40 : ℚ), (50 : ℚ)) ∈
      [(TradeAction.buy, none, (20 : ℚ)), (.buy, some 40, 50)] := by simp
  rw [← htrace] at hlast
  obtain ⟨e, he, heq⟩ := List.mem_map.mp hlast
  rw [Prod.mk.injEq, Prod.mk.injEq] at heq
  obtain ⟨haction, hexecution, hprice⟩ := heq
  apply hkeeps e he 40 hexecution
  rw [haction, hprice]
  change (40 : ℚ) < 50
  decide

end Session

end MarketBlocks
