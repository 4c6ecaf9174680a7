import MarketBlocks.PaperTrading.Session

/-!
# Rejected orders

`add_order` stores and lists an order before it tries the fill and takes nothing back when
the fill throws. The only exception it can meet is the one for missing funds, and after it
the order is open, although the caller never learned its id.
-/

namespace MarketBlocks

open Library

namespace PaperTradeApi

/-- Two accounts that differ at most in the order counter and in empty id lists. -/
structure Unchanged (before after : PaperTradeApi) : Prop where
  balances : after.balances = before.balances
  openOrders : after.openOrders = before.openOrders
  orderIds : ∀ pair, after.orderIds pair = before.orderIds pair
  closedOrders : after.closedOrders = before.closedOrders
  trailingOrderLimits : after.trailingOrderLimits = before.trailingOrderLimits

/-- A new order whose trigger holds at the last price and whose sold amount is not covered. -/
def Unaffordable (feed : Feed) (request : OrderRequest) (api : PaperTradeApi) : Prop :=
  feed.price request.pair ≠ 0 ∧ ∃ fillPrice,
    triggerPrice request none (feed.price request.pair) = some fillPrice ∧
      api.covers request fillPrice = false

variable {feed : Feed} {request : OrderRequest} {api : PaperTradeApi}

/-- Without a stored limit of its own, a registered order triggers on the price alone. -/
theorem trigger_register (hfresh : api.nextOrderId ∉ api.trailingOrderLimits) :
    (api.register request).trigger feed api.nextOrderId request =
      if feed.price request.pair = 0 then none
      else triggerPrice request none (feed.price request.pair) := by
  have hlimit : (api.register request).trailingOrderLimits.lookup api.nextOrderId = none :=
    Finmap.lookup_eq_none.mpr hfresh
  rw [trigger, hlimit]

/-- An order that cannot be paid for is still open after its call was rejected. -/
theorem addOrder_of_unaffordable
    (hopen : (api.register request).openOrders.lookup api.nextOrderId = some request)
    (hfresh : api.nextOrderId ∉ api.trailingOrderLimits) (h : Unaffordable feed request api) :
    (∃ fault, (addOrder feed request api).1 = .error fault) ∧
      api.nextOrderId ∈ (addOrder feed request api).2.openOrders := by
  obtain ⟨hprice, fillPrice, htrigger, hcovers⟩ := h
  have hregistered : (api.register request).trigger feed api.nextOrderId request =
      some fillPrice := by rw [trigger_register hfresh, if_neg hprice, htrigger]
  have htry := tryFillOrder_of_not_covers hopen hregistered hcovers
  rw [addOrder, htry]
  exact ⟨⟨_, rfl⟩, Finmap.mem_of_lookup_eq_some hopen⟩

/-- Only an order that cannot be paid for is rejected. -/
theorem unaffordable_of_addOrder_error {fault : Fault}
    (hopen : (api.register request).openOrders.lookup api.nextOrderId = some request)
    (hfresh : api.nextOrderId ∉ api.trailingOrderLimits)
    (herror : (addOrder feed request api).1 = .error fault) : Unaffordable feed request api := by
  obtain ⟨result, api', heq, hcase⟩ := tryFillOrder_evaluated feed hopen
  rw [addOrder, heq] at herror
  cases hcase with
  | noPrice | waiting | filled => cases herror
  | unpaid fillPrice htrigger hcovers =>
    rw [trigger_register hfresh] at htrigger
    split at htrigger
    · cases htrigger
    · next hprice => exact ⟨hprice, fillPrice, htrigger, hcovers⟩

end PaperTradeApi

namespace Session

open PaperTradeApi

/-- In every reachable session, a rejected order leaves the account as it was exactly when it
is not rejected for its funds, which is the only reason for a rejection. -/
theorem addOrder_unchanged_iff (config : PaperTradingConfig) (inputs : List (Feed × Call))
    (feed : Feed) (request : OrderRequest) :
    let api := (Session.run config inputs).api
    (∀ fault, (addOrder feed request api).1 = .error fault →
        Unchanged api (addOrder feed request api).2) ↔
      ¬ Unaffordable feed request api := by
  intro api
  have hwell := WellFormed.run config inputs
  have hopen := hwell.register_lookup request
  have hfresh : api.nextOrderId ∉ api.trailingOrderLimits :=
    fun h => hwell.nextOrderId_fresh (hwell.limits_issued _ h)
  constructor
  · intro hatomic hunaffordable
    obtain ⟨⟨fault, herror⟩, hstays⟩ := addOrder_of_unaffordable hopen hfresh hunaffordable
    rw [(hatomic fault herror).openOrders] at hstays
    exact hwell.nextOrderId_fresh (hwell.open_issued hstays)
  · intro haffordable fault herror
    exact absurd (unaffordable_of_addOrder_error hopen hfresh herror) haffordable

/-- A market order of cost 200 is rejected by an account of 100, stays open, and fills once the
price has come down. -/
theorem addOrder_rejected_fills_later :
    let api := (Session.run ⟨1 / 10, [("GBP", 100)]⟩ []).api
    let request := createMarketOrder ⟨"BTC", "GBP"⟩ .buy 10
    let rejected := addOrder (Feed.quote 20) request api
    rejected.1 = .error (.insufficientFunds "GBP") ∧ ¬ Unchanged api rejected.2 ∧
      (tradeUpdateHandler (Feed.quote 5) ⟨"BTC", "GBP"⟩ rejected.2).2.closedIds = ["1"] := by
  intro api request rejected
  refine ⟨by decide +kernel, ?_, by decide +kernel⟩
  intro h
  have hmem : "1" ∈ rejected.2.openOrders := by decide +kernel
  rw [h.openOrders] at hmem
  exact Finmap.notMem_empty hmem

end Session

end MarketBlocks
