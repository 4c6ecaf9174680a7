import MarketBlocks.PaperTrading.PaperTradeApi

/-!
# One evaluation of an order

`try_fill_order` decides from the order, the price and the stored trailing limit alone
whether the order triggers, and then from the sold balance whether the fill goes through.
`Evaluated` lists the four ways in which it ends; everything later is derived from it.
-/

namespace MarketBlocks

open Library

/-- The trailing limit after one more price. -/
def trailingLimit (action : TradeAction) (limit price : ℚ) : ℚ :=
  match action with
  | .buy => min limit price
  | .sell => max limit price

/-- The price at which an order fills when it is evaluated at `price`, or `none` when its
trigger does not hold. A trailing order that has no stored limit starts from `price`. -/
def triggerPrice (request : OrderRequest) (stored : Option ℚ) (price : ℚ) : Option ℚ :=
  match request.orderType with
  | .market => some price
  | .limit => if shouldCloseLimitOrder request price then some (request.get .assetPrice) else none
  | .stopLoss => if shouldCloseStopLossOrder request price then some (request.get .stopPrice) else none
  | .trailingStopLoss =>
    if (shouldCloseTrailingStopLossOrder request price (stored.getD price)).1 then some price else none
  | .takeProfit => none

/-- The trailing limits after an evaluation that did not trigger. -/
def noteTrailing (orderId : String) (request : OrderRequest) (price : ℚ)
    (limits : UnorderedMap String ℚ) : UnorderedMap String ℚ :=
  if request.orderType = .trailingStopLoss then
    limits.insert orderId (trailingLimit request.action ((limits.lookup orderId).getD price) price)
  else limits

/-- The trailing limits after an evaluation that triggered. -/
def dropTrailing (orderId : String) (request : OrderRequest) (limits : UnorderedMap String ℚ) :
    UnorderedMap String ℚ :=
  if request.orderType = .trailingStopLoss then limits.erase orderId else limits

/-- The reference parameter of the trailing test becomes the trailing limit. -/
theorem shouldCloseTrailingStopLossOrder_snd (request : OrderRequest) (price limit : ℚ) :
    (shouldCloseTrailingStopLossOrder request price limit).2 =
      trailingLimit request.action limit price := by
  unfold shouldCloseTrailingStopLossOrder
  cases request.action <;> rfl

/-- The trigger of an order at a price does not change by noting that price. -/
theorem triggerPrice_trailingLimit (request : OrderRequest) (stored : Option ℚ) (price : ℚ) :
    triggerPrice request (some (trailingLimit request.action (stored.getD price) price)) price =
      triggerPrice request stored price := by
  unfold triggerPrice shouldCloseTrailingStopLossOrder
  cases request.orderType <;> cases request.action <;> simp [trailingLimit]

/-- The `switch` of `try_fill_order` depends on the trailing limits only through the entry of
the order itself. -/
theorem selectFill_eq (orderId : String) (request : OrderRequest) (price : ℚ)
    (limits : UnorderedMap String ℚ) :
    PaperTradeApi.selectFill orderId request price limits =
      match triggerPrice request (limits.lookup orderId) price with
      | none => (none, noteTrailing orderId request price limits)
      | some fillPrice => (some fillPrice, dropTrailing orderId request limits) := by
  unfold PaperTradeApi.selectFill triggerPrice noteTrailing dropTrailing
  cases htype : request.orderType with
  | market => simp
  | limit => cases shouldCloseLimitOrder request price <;> simp
  | stopLoss => cases shouldCloseStopLossOrder request price <;> simp
  | takeProfit => simp
  | trailingStopLoss =>
    simp only [UnorderedMap.findOrDefault_emplace_self, shouldCloseTrailingStopLossOrder_snd,
      UnorderedMap.insert_emplace, UnorderedMap.erase_insert_self, if_true]
    cases (shouldCloseTrailingStopLossOrder request price
      ((Finmap.lookup orderId limits).getD price)).1 <;> simp

namespace PaperTradeApi

variable (feed : Feed) (orderId : String) (request : OrderRequest) (api : PaperTradeApi)

/-- The price at which an open order would fill now. Price zero is the stream's default
trade, so nothing triggers on it. -/
def trigger : Option ℚ :=
  if feed.price request.pair = 0 then none
  else triggerPrice request (api.trailingOrderLimits.lookup orderId) (feed.price request.pair)

/-- Whether the balances cover what a fill sells. -/
def covers (fillPrice : ℚ) : Bool :=
  api.hasSufficientFunds (fillOf api.fee request fillPrice).soldAsset
    (toIntegerVolume (fillOf api.fee request fillPrice).soldValue)

/-- The account after a fill. -/
def filled (fillPrice : ℚ) : PaperTradeApi :=
  { api with
    trailingOrderLimits := dropTrailing orderId request api.trailingOrderLimits
    balances := (fillOf api.fee request fillPrice).applyTo api.balances
    closedOrders := api.closedOrders ++ [toOrderDescription orderId fillPrice feed.time request]
    openOrders := api.openOrders.erase orderId }

/-- The account after an evaluation at a price that did not trigger. -/
def noted : PaperTradeApi :=
  { api with trailingOrderLimits :=
      noteTrailing orderId request (feed.price request.pair) api.trailingOrderLimits }

/-- The account after a fill that could not be paid for. -/
def unpaid : PaperTradeApi :=
  { api with trailingOrderLimits := dropTrailing orderId request api.trailingOrderLimits }

/-- The ways in which the evaluation of an open order ends. -/
inductive Evaluated : Except Fault Bool → PaperTradeApi → Prop where
  | noPrice (hprice : feed.price request.pair = 0) : Evaluated (.ok false) api
  | waiting (hprice : feed.price request.pair ≠ 0) (htrigger : api.trigger feed orderId request = none) :
    Evaluated (.ok false) (api.noted feed orderId request)
  | filled (fillPrice : ℚ) (htrigger : api.trigger feed orderId request = some fillPrice)
    (hcovers : api.covers request fillPrice = true) :
    Evaluated (.ok true) (api.filled feed orderId request fillPrice)
  | unpaid (fillPrice : ℚ) (htrigger : api.trigger feed orderId request = some fillPrice)
    (hcovers : api.covers request fillPrice = false) :
    Evaluated (.error (.insufficientFunds (fillOf api.fee request fillPrice).soldAsset))
      (api.unpaid orderId request)

variable {feed orderId request api}

/-- With no trigger the evaluation returns `false` and at most moves the trailing limit. -/
theorem tryFillOrder_of_trigger_none (hopen : api.openOrders.lookup orderId = some request)
    (hprice : feed.price request.pair ≠ 0) (htrigger : api.trigger feed orderId request = none) :
    tryFillOrder feed orderId api = (.ok false, api.noted feed orderId request) := by
  rw [trigger, if_neg hprice] at htrigger
  simp only [tryFillOrder, hopen, if_neg hprice, selectFill_eq, htrigger, noted]

/-- A triggered order that is covered is filled. -/
theorem tryFillOrder_of_covers {fillPrice : ℚ} (hopen : api.openOrders.lookup orderId = some request)
    (htrigger : api.trigger feed orderId request = some fillPrice)
    (hcovers : api.covers request fillPrice = true) :
    tryFillOrder feed orderId api = (.ok true, api.filled feed orderId request fillPrice) := by
  by_cases hprice : feed.price request.pair = 0
  · simp [trigger, hprice] at htrigger
  · rw [trigger, if_neg hprice] at htrigger
    have hfunds := hcovers
    simp only [covers, hasSufficientFunds] at hfunds
    simp [tryFillOrder, hopen, hprice, selectFill_eq, htrigger, executeOrder, filled,
      hasSufficientFunds, hfunds]

/-- A triggered order that is not covered makes the evaluation throw. -/
theorem tryFillOrder_of_not_covers {fillPrice : ℚ}
    (hopen : api.openOrders.lookup orderId = some request)
    (htrigger : api.trigger feed orderId request = some fillPrice)
    (hcovers : api.covers request fillPrice = false) :
    tryFillOrder feed orderId api =
      (.error (.insufficientFunds (fillOf api.fee request fillPrice).soldAsset),
        api.unpaid orderId request) := by
  by_cases hprice : feed.price request.pair = 0
  · simp [trigger, hprice] at htrigger
  · rw [trigger, if_neg hprice] at htrigger
    have hfunds := hcovers
    simp only [covers, hasSufficientFunds] at hfunds
    simp [tryFillOrder, hopen, hprice, selectFill_eq, htrigger, executeOrder, unpaid,
      hasSufficientFunds, hfunds]

/-- Without a last trade the evaluation does nothing. -/
theorem tryFillOrder_of_no_price (hopen : api.openOrders.lookup orderId = some request)
    (hprice : feed.price request.pair = 0) : tryFillOrder feed orderId api = (.ok false, api) := by
  simp [tryFillOrder, hopen, hprice]

/-- Every evaluation of an open order is one of the four. -/
theorem tryFillOrder_evaluated (feed : Feed)
    (hopen : api.openOrders.lookup orderId = some request) :
    ∃ result api', tryFillOrder feed orderId api = (result, api') ∧
      Evaluated feed orderId request api result api' := by
  by_cases hprice : feed.price request.pair = 0
  · exact ⟨_, _, tryFillOrder_of_no_price hopen hprice, .noPrice hprice⟩
  cases htrigger : api.trigger feed orderId request with
  | none => exact ⟨_, _, tryFillOrder_of_trigger_none hopen hprice htrigger, .waiting hprice htrigger⟩
  | some fillPrice =>
    cases hcovers : api.covers request fillPrice with
    | true => exact ⟨_, _, tryFillOrder_of_covers hopen htrigger hcovers, .filled _ htrigger hcovers⟩
    | false =>
      exact ⟨_, _, tryFillOrder_of_not_covers hopen htrigger hcovers, .unpaid _ htrigger hcovers⟩

/-! ## What an evaluation leaves alone -/

/-- What the account knows about one order, its place in an id list aside. -/
structure OrderView where
  opened : Option OrderRequest
  limit : Option ℚ
  closed : List OrderDescription

/-- The view of one order. -/
def view (api : PaperTradeApi) (orderId : String) : OrderView where
  opened := api.openOrders.lookup orderId
  limit := api.trailingOrderLimits.lookup orderId
  closed := api.closedOrders.filter (·.orderId = orderId)

variable {other : String}

/-- An evaluation at a price that did not trigger writes the limit of its own order only. -/
theorem lookup_noteTrailing_of_ne (hne : other ≠ orderId) (price : ℚ)
    (limits : UnorderedMap String ℚ) :
    (noteTrailing orderId request price limits).lookup other = limits.lookup other := by
  unfold noteTrailing
  split
  · exact Finmap.lookup_insert_of_ne _ hne
  · rfl

/-- An evaluation that triggered drops the limit of its own order only. -/
theorem lookup_dropTrailing_of_ne (hne : other ≠ orderId) (limits : UnorderedMap String ℚ) :
    (dropTrailing orderId request limits).lookup other = limits.lookup other := by
  unfold dropTrailing
  split
  · exact Finmap.lookup_erase_ne hne
  · rfl

/-- A fill changes the view of its own order only. -/
theorem filled_view_of_ne (hne : other ≠ orderId) (fillPrice : ℚ) :
    (api.filled feed orderId request fillPrice).view other = api.view other := by
  have hopen : (api.openOrders.erase orderId).lookup other = api.openOrders.lookup other :=
    Finmap.lookup_erase_ne hne
  simp [view, filled, hopen, lookup_dropTrailing_of_ne hne, List.filter_append, toOrderDescription,
    hne.symm]

/-- An evaluation changes the view of its own order only. -/
theorem Evaluated.view_of_ne {result : Except Fault Bool} {api' : PaperTradeApi}
    (h : Evaluated feed orderId request api result api') (hne : other ≠ orderId) :
    api'.view other = api.view other := by
  cases h with
  | noPrice => rfl
  | waiting => simp [view, noted, lookup_noteTrailing_of_ne hne]
  | filled fillPrice => exact filled_view_of_ne hne fillPrice
  | unpaid => simp [view, PaperTradeApi.unpaid, lookup_dropTrailing_of_ne hne]

/-- An evaluation opens no order. -/
theorem Evaluated.lookup_openOrders_of_some {result : Except Fault Bool} {api' : PaperTradeApi}
    (h : Evaluated feed orderId request api result api') {r : OrderRequest}
    (hopen : api'.openOrders.lookup other = some r) : api.openOrders.lookup other = some r := by
  cases h with
  | noPrice | waiting | unpaid => exact hopen
  | filled fillPrice =>
    simp only [PaperTradeApi.filled, UnorderedMap.lookup_erase_eq] at hopen
    split at hopen
    · cases hopen
    · exact hopen

/-- Whether an order triggers depends on its own view only. -/
theorem trigger_congr {api' : PaperTradeApi} (hview : api'.view orderId = api.view orderId) :
    api'.trigger feed orderId request = api.trigger feed orderId request := by
  have hlimit : api'.trailingOrderLimits.lookup orderId = api.trailingOrderLimits.lookup orderId :=
    congrArg OrderView.limit hview
  rw [trigger, trigger, hlimit]

/-- Trailing limits are stored for the order under evaluation and for no other new order. -/
theorem Evaluated.mem_limits {result : Except Fault Bool} {api' : PaperTradeApi}
    (h : Evaluated feed orderId request api result api') (hmem : other ∈ api'.trailingOrderLimits) :
    other = orderId ∨ other ∈ api.trailingOrderLimits := by
  by_cases hne : other = orderId
  · exact .inl hne
  · have hlimit : api'.trailingOrderLimits.lookup other = api.trailingOrderLimits.lookup other :=
      congrArg OrderView.limit (h.view_of_ne hne)
    rw [← Finmap.lookup_isSome, hlimit, Finmap.lookup_isSome] at hmem
    exact .inr hmem

end PaperTradeApi

end MarketBlocks
