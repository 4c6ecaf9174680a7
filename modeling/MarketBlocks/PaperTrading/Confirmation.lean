import MarketBlocks.PaperTrading.Rejection

/-!
# What is reported about an order

`add_order_confirm` makes its confirmation out of constants, of the request and of the last trade:
closed, filled whole, at that price. Nothing of it depends on what became of the order.
`get_order_status` knows the open orders only and takes every other id for that of a closed one.
-/

namespace MarketBlocks

open Library

namespace PaperTradeApi

/-- A confirmation says what an account has of its order: closed with the volume and the fill price
if it is among the closed orders, and else open with nothing filled. -/
structure Matches (request : OrderRequest) (api : PaperTradeApi) (confirmation : OrderConfirmation) :
    Prop where
  closed : ∀ order ∈ api.closedOrders, order.orderId = confirmation.orderId →
    confirmation.orderStatus = .closed ∧ confirmation.filledQty = request.get .volume ∧
      confirmation.price = order.price
  waiting : confirmation.orderId ∉ api.closedIds →
    confirmation.orderStatus = OrderStatus.open ∧ confirmation.filledQty = 0

/-- When `add_order_confirm` returns, its confirmation matches the account that it leaves. -/
def ConfirmsFaithfully (feed : Feed) (request : OrderRequest) (api : PaperTradeApi) : Prop :=
  ∀ confirmation, (addOrderConfirm feed request api).1 = .ok confirmation →
    Matches request (addOrderConfirm feed request api).2 confirmation

/-- A new order that fills at the last trade itself. -/
def SettlesAtMarket (request : OrderRequest) (price : ℚ) : Prop :=
  price ≠ 0 ∧
    match request.orderType with
    | .market => True
    | .limit => request.get .assetPrice = price
    | .stopLoss => request.get .stopPrice = price
    | .trailingStopLoss => price * request.get .trailingDelta ≤ 0
    | .takeProfit => False

variable {feed : Feed} {request : OrderRequest} {api : PaperTradeApi}

/-- A trailing order that starts at a price triggers on it when its delta does not go further. -/
theorem shouldCloseTrailingStopLossOrder_self (request : OrderRequest) (price : ℚ) :
    (shouldCloseTrailingStopLossOrder request price price).1 = true ↔
      price * request.get .trailingDelta ≤ 0 := by
  unfold shouldCloseTrailingStopLossOrder
  cases request.action with
  | buy =>
    simp only [if_true, min_self, ge_iff_le, decide_eq_true_eq, mul_add, mul_one]
    exact add_le_iff_nonpos_right price
  | sell =>
    simp only [reduceCtorEq, if_false, max_self, decide_eq_true_eq, mul_sub, mul_one]
    exact le_sub_self_iff price

/-- A new order triggers with the last trade as its fill price when it settles at the market. -/
theorem triggerPrice_eq_self_iff {price : ℚ} (hprice : price ≠ 0) :
    triggerPrice request none price = some price ↔ SettlesAtMarket request price := by
  rw [SettlesAtMarket, and_iff_right hprice, triggerPrice]
  cases request.orderType with
  | market => exact iff_of_true rfl trivial
  | limit =>
    rw [Option.ite_some_none_eq_some]
    refine and_iff_right_of_imp fun heq => ?_
    rw [shouldCloseLimitOrder, heq]
    cases request.action <;> simp
  | stopLoss =>
    rw [Option.ite_some_none_eq_some]
    refine and_iff_right_of_imp fun heq => ?_
    rw [shouldCloseStopLossOrder, heq]
    cases request.action <;> simp
  | trailingStopLoss =>
    rw [Option.ite_some_none_eq_some, Option.getD_none, shouldCloseTrailingStopLossOrder_self]
    exact and_iff_left rfl
  | takeProfit => exact iff_of_false (fun h => nomatch h) not_false

/-- The confirmation of an order whose attempted fill returns. -/
theorem addOrderConfirm_of_ok {filled : Bool} {api' : PaperTradeApi}
    (htry : tryFillOrder feed api.nextOrderId (api.register request) = (.ok filled, api')) :
    addOrderConfirm feed request api =
      (.ok { orderId := api.nextOrderId, orderStatus := .closed, originalQty := request.get .volume,
             filledQty := request.get .volume, price := feed.price request.pair }, api') := by
  rw [addOrderConfirm, addOrder, htry]

/-- An order that was not filled is confirmed as a closed one. -/
private theorem not_confirmsFaithfully_of_waiting {filled : Bool} {api' : PaperTradeApi}
    (htry : tryFillOrder feed api.nextOrderId (api.register request) = (.ok filled, api'))
    (hfresh : api.nextOrderId ∉ api'.closedIds) : ¬ConfirmsFaithfully feed request api := by
  intro hconfirms
  rw [ConfirmsFaithfully, addOrderConfirm_of_ok htry] at hconfirms
  have hopen := ((hconfirms _ rfl).waiting hfresh).1
  cases hopen

/-- An order that was filled is confirmed at the last trade. -/
private theorem confirmsFaithfully_filled_iff {fillPrice : ℚ} (hfresh : api.nextOrderId ∉ api.closedIds)
    (htry : tryFillOrder feed api.nextOrderId (api.register request) =
      (.ok true, (api.register request).filled feed api.nextOrderId request fillPrice)) :
    ConfirmsFaithfully feed request api ↔ fillPrice = feed.price request.pair := by
  rw [ConfirmsFaithfully, addOrderConfirm_of_ok htry]
  have hclosed : ((api.register request).filled feed api.nextOrderId request fillPrice).closedOrders =
      api.closedOrders ++ [toOrderDescription api.nextOrderId fillPrice feed.time request] := rfl
  constructor
  · intro hconfirms
    have hmatches := (hconfirms _ rfl).closed
    rw [hclosed] at hmatches
    exact (hmatches _ (List.mem_append_right _ (List.mem_singleton_self _)) rfl).2.2.symm
  · intro hprice confirmation hconfirmation
    cases hconfirmation
    constructor
    · intro order horder hid
      rw [hclosed] at horder
      rcases List.mem_append.mp horder with hold | hnew
      · have hmem : order.orderId ∈ api.closedIds := List.mem_map_of_mem hold
        rw [hid] at hmem
        exact absurd hmem hfresh
      · rw [List.mem_singleton.mp hnew]
        exact ⟨rfl, rfl, hprice.symm⟩
    · intro hnot
      refine absurd ?_ hnot
      rw [closedIds, hclosed, List.map_append, List.map_singleton]
      exact List.mem_append_right _ (List.mem_singleton_self _)

/-- What decides whether a confirmation is faithful. -/
theorem confirmsFaithfully_iff
    (hopen : (api.register request).openOrders.lookup api.nextOrderId = some request)
    (hfresh : api.nextOrderId ∉ api.trailingOrderLimits) (hclosed : api.nextOrderId ∉ api.closedIds) :
    ConfirmsFaithfully feed request api ↔
      Unaffordable feed request api ∨ SettlesAtMarket request (feed.price request.pair) := by
  by_cases hprice : feed.price request.pair = 0
  · have htry := tryFillOrder_of_no_price hopen hprice
    refine iff_of_false (not_confirmsFaithfully_of_waiting htry hclosed) ?_
    rintro (hunaffordable | hsettles)
    · exact hunaffordable.1 hprice
    · exact hsettles.1 hprice
  rw [← triggerPrice_eq_self_iff hprice]
  have hregister : (api.register request).trigger feed api.nextOrderId request =
      triggerPrice request none (feed.price request.pair) := by
    rw [trigger_register hfresh, if_neg hprice]
  cases htrigger : triggerPrice request none (feed.price request.pair) with
  | none =>
    have htry := tryFillOrder_of_trigger_none hopen hprice (hregister.trans htrigger)
    refine iff_of_false (not_confirmsFaithfully_of_waiting htry hclosed) ?_
    rintro (⟨_, fillPrice, hsome, _⟩ | hself)
    · rw [htrigger] at hsome
      cases hsome
    · cases hself
  | some fillPrice =>
    cases hcovers : api.covers request fillPrice with
    | true =>
      have htry := tryFillOrder_of_covers hopen (hregister.trans htrigger) hcovers
      have haffordable : ¬Unaffordable feed request api := by
        rintro ⟨_, fillPrice', hsome, hnot⟩
        rw [htrigger] at hsome
        cases hsome
        rw [hcovers] at hnot
        cases hnot
      rw [confirmsFaithfully_filled_iff hclosed htry, or_iff_right haffordable, Option.some.injEq]
    | false =>
      have htry := tryFillOrder_of_not_covers hopen (hregister.trans htrigger) hcovers
      refine iff_of_true ?_ (.inl ⟨hprice, fillPrice, htrigger, hcovers⟩)
      intro confirmation hconfirmation
      rw [addOrderConfirm, addOrder, htry] at hconfirmation
      cases hconfirmation

end PaperTradeApi

namespace Session

open PaperTradeApi

/-- An issued id is reported closed exactly when it is among the closed orders. -/
def TellsStatus (s : Session) : Prop :=
  ∀ id ∈ s.requests, getOrderStatus id s.api = .closed ↔ id ∈ s.api.closedIds

/-- A call that takes an open order out. -/
def Cancels (s : Session) (input : Feed × Call) : Prop :=
  ∃ id, input.2 = .cancelOrder id ∧ id ∈ s.api.openOrders

variable {s : Session}

/-- What is reported closed is what is not open, whatever became of it. -/
theorem getOrderStatus_eq_closed_iff {id : String} {api : PaperTradeApi} :
    getOrderStatus id api = .closed ↔ id ∉ api.openOrders := by
  rw [getOrderStatus]
  split
  · next hopen => exact iff_of_false (fun h => by cases h) (not_not.mpr hopen)
  · next hopen => exact iff_of_true rfl hopen

/-- Where nothing was cancelled the statuses are told right. -/
theorem WellFormed.tellsStatus (h : s.WellFormed) (hcancelled : s.cancelled = []) :
    s.TellsStatus := by
  intro id hid
  rw [getOrderStatus_eq_closed_iff]
  constructor
  · intro hnot
    rcases h.accounted id hid with hopen | hclosed | hmem
    · exact absurd hopen hnot
    · exact hclosed
    · rw [hcancelled] at hmem
      cases hmem
  · exact fun hclosed hopen => h.open_not_closed id hopen hclosed

/-- A cancelled order is reported closed, which it never is. -/
theorem WellFormed.not_tellsStatus (h : s.WellFormed) {id : String} (hid : id ∈ s.cancelled) :
    ¬s.TellsStatus := by
  intro htells
  have hclosed := (htells id (h.cancelled_issued id hid)).mp
    (getOrderStatus_eq_closed_iff.mpr fun hopen => h.open_not_cancelled id hopen hid)
  exact h.closed_not_cancelled id hclosed hid

/-- The call that takes an order out adds it to the cancelled ones. -/
theorem exists_cancelled_of_cancels {input : Feed × Call} (h : s.Cancels input) :
    ∃ id, id ∈ (s.step input).cancelled := by
  obtain ⟨feed, call⟩ := input
  obtain ⟨id, rfl, hopen⟩ := h
  rw [step_cancelOrder, if_pos hopen]
  exact ⟨id, List.mem_append_right _ (List.mem_singleton_self _)⟩

/-- Only a cancellation cancels. -/
theorem step_cancelled_of_not_cancels {input : Feed × Call} (h : ¬s.Cancels input) :
    (s.step input).cancelled = s.cancelled := by
  obtain ⟨feed, call⟩ := input
  cases call with
  | cancelOrder id =>
    have hopen : id ∉ s.api.openOrders := fun hopen => h ⟨id, rfl, hopen⟩
    rw [step_cancelOrder, if_neg hopen]
  | addOrder | addOrderConfirm | tradeUpdate => rfl

/-- In every reachable session, a confirmation is faithful exactly when the order is rejected for
its funds or fills at the last trade itself; and the status of every issued id is right throughout
a session exactly when no call of it takes an open order out. -/
theorem run_reports_iff (config : PaperTradingConfig) (inputs : List (Feed × Call)) :
    (∀ feed request, ConfirmsFaithfully feed request (run config inputs).api ↔
      Unaffordable feed request (run config inputs).api ∨
        SettlesAtMarket request (feed.price request.pair)) ∧
    ((∀ before, before <+: inputs → (run config before).TellsStatus) ↔
      EveryStep step (fun s input => ¬s.Cancels input) (start config) inputs) := by
  constructor
  · intro feed request
    have hwell := WellFormed.run config inputs
    apply confirmsFaithfully_iff (hwell.register_lookup request)
    · exact fun h => hwell.nextOrderId_fresh (hwell.limits_issued _ h)
    · exact fun h => hwell.nextOrderId_fresh (hwell.closed_issued h)
  · symm
    apply everyStep_iff_of_invariant (I := fun s : Session => s.WellFormed ∧ s.cancelled = [])
    · rintro s input ⟨hwell, hnone⟩ hkeeps
      exact ⟨hwell.step input, (step_cancelled_of_not_cancels hkeeps).trans hnone⟩
    · exact fun s h => h.1.tellsStatus h.2
    · rintro s input ⟨hwell, _⟩ hcancels
      obtain ⟨id, hid⟩ := exists_cancelled_of_cancels (not_not.mp hcancels)
      exact (hwell.step input).not_tellsStatus hid
    · exact ⟨WellFormed.start config, rfl⟩

/-- A limit order below the market waits, and is confirmed as filled; once it is cancelled, it is
reported closed. -/
theorem run_reports_waiting :
    let request := createLimitOrder ⟨"BTC", "GBP"⟩ .buy 10 1
    let config : PaperTradingConfig := ⟨1 / 10, [("GBP", 100)]⟩
    ¬ConfirmsFaithfully (Feed.quote 20) request (run config []).api ∧
      ¬(run config [(Feed.quote 20, .addOrder request),
        (Feed.quote 20, .cancelOrder "1")]).TellsStatus := by
  intro request config
  constructor
  · intro hconfirms
    have hreturns : (addOrderConfirm (Feed.quote 20) request (run config []).api).1 =
        .ok ⟨"1", .closed, 1, 1, 20⟩ := by decide +kernel
    have hwaits := (hconfirms _ hreturns).waiting (by decide +kernel)
    cases hwaits.1
  · intro htells
    have hissued : "1" ∈ (run config [(Feed.quote 20, .addOrder request),
        (Feed.quote 20, .cancelOrder "1")]).requests := by decide +kernel
    have hclosed := (htells "1" hissued).mp (by decide +kernel)
    revert hclosed
    decide +kernel

end Session

end MarketBlocks
