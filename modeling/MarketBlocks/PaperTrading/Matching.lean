import MarketBlocks.PaperTrading.Session
import Mathlib.Order.MinMax

/-!
# When an order is filled

Seen alone, an order is a small automaton: each evaluation either fills it or notes the
price, and once filled or cancelled it never changes again. `matchPrice` gives its trigger
in terms of all prices it was evaluated at, and `firstFill` the first evaluation that meets
it. A step of the account moves the view of each order as the automaton does, whatever
happens to the other orders, so every run closes every order at its first fill.
-/

namespace MarketBlocks

open Library

/-- The lowest price for a buyer and the highest price for a seller, over the earlier
evaluations and this one. -/
def extremePrice (action : TradeAction) (earlier : List ℚ) (price : ℚ) : ℚ :=
  match action with
  | .buy => earlier.foldl min price
  | .sell => earlier.foldl max price

/-- The fill price of an order that is evaluated at `price` after the `earlier` prices, or `none`
when the price does not meet its trigger. -/
def matchPrice (request : OrderRequest) (earlier : List ℚ) (price : ℚ) : Option ℚ :=
  match request.orderType, request.action with
  | .market, _ => some price
  | .limit, .buy =>
    if price ≤ request.get .assetPrice then some (request.get .assetPrice) else none
  | .limit, .sell =>
    if price ≥ request.get .assetPrice then some (request.get .assetPrice) else none
  | .stopLoss, .buy =>
    if price ≥ request.get .stopPrice then some (request.get .stopPrice) else none
  | .stopLoss, .sell =>
    if price ≤ request.get .stopPrice then some (request.get .stopPrice) else none
  | .trailingStopLoss, .buy =>
    if price ≥ extremePrice .buy earlier price * (1 + request.get .trailingDelta) then some price
    else none
  | .trailingStopLoss, .sell =>
    if price ≤ extremePrice .sell earlier price * (1 - request.get .trailingDelta) then some price
    else none
  | .takeProfit, _ => none

/-- The first of the evaluations, given as prices with their times, that meets the trigger. -/
def firstFill (request : OrderRequest) : List ℚ → List (ℚ × ℤ) → Option (ℚ × ℤ)
  | _, [] => none
  | earlier, (price, time) :: rest =>
    match matchPrice request earlier price with
    | some fillPrice => some (fillPrice, time)
    | none => firstFill request (earlier ++ [price]) rest

/-- The evaluations of an order in the calls after its own: the trade updates of its pair, up
to its cancellation. -/
def evaluations (id : String) (pair : TradablePair) : List (Feed × Call) → List (ℚ × ℤ)
  | [] => []
  | (feed, .tradeUpdate updated) :: rest =>
    if updated = pair then (feed.price pair, feed.time) :: evaluations id pair rest
    else evaluations id pair rest
  | (_, .cancelOrder cancelled) :: rest =>
    if cancelled = id then [] else evaluations id pair rest
  | (_, .addOrder _) :: rest | (_, .addOrderConfirm _) :: rest => evaluations id pair rest

/-- Whether an order is cancelled in the calls after its own. -/
def CancelledIn (id : String) (after : List (Feed × Call)) : Prop :=
  ∃ feed, (feed, Call.cancelOrder id) ∈ after

/-! ## The trailing limit as an extreme -/

/-- The trailing limit that the earlier prices leave, none before the first evaluation. -/
def runningLimit (action : TradeAction) : List ℚ → Option ℚ
  | [] => none
  | first :: rest => some (rest.foldl (trailingLimit action) first)

/-- The limit against which the next price is tested is the extreme price. -/
theorem trailingLimit_runningLimit (action : TradeAction) (earlier : List ℚ) (price : ℚ) :
    trailingLimit action ((runningLimit action earlier).getD price) price =
      extremePrice action earlier price := by
  cases earlier with
  | nil => cases action <;> simp [runningLimit, trailingLimit, extremePrice]
  | cons first rest =>
    cases action with
    | buy =>
      change min (rest.foldl min first) price = rest.foldl min (min price first)
      rw [List.foldl_assoc, min_comm]
    | sell =>
      change max (rest.foldl max first) price = rest.foldl max (max price first)
      rw [List.foldl_assoc, max_comm]

/-- A further price moves the running limit as the source does. -/
theorem runningLimit_concat (action : TradeAction) (earlier : List ℚ) (price : ℚ) :
    runningLimit action (earlier ++ [price]) =
      some (trailingLimit action ((runningLimit action earlier).getD price) price) := by
  cases earlier with
  | nil => cases action <;> simp [runningLimit, trailingLimit]
  | cons first rest => simp [runningLimit, List.foldl_append]

/-- The limit that the account stores for an order after the earlier evaluations. -/
def storedLimit (request : OrderRequest) (earlier : List ℚ) : Option ℚ :=
  if request.orderType = .trailingStopLoss then runningLimit request.action earlier else none

/-- The `switch` of `try_fill_order`, on the stored limit, decides as the trigger does on all
earlier prices. -/
theorem triggerPrice_storedLimit (request : OrderRequest) (earlier : List ℚ) (price : ℚ) :
    triggerPrice request (storedLimit request earlier) price = matchPrice request earlier price := by
  have hlimit := trailingLimit_runningLimit request.action earlier price
  unfold triggerPrice matchPrice storedLimit
  cases htype : request.orderType with
  | market | takeProfit => rfl
  | limit => cases haction : request.action <;> simp [shouldCloseLimitOrder, haction]
  | stopLoss => cases haction : request.action <;> simp [shouldCloseStopLossOrder, haction]
  | trailingStopLoss =>
    cases haction : request.action with
    | buy =>
      rw [haction] at hlimit
      simp [shouldCloseTrailingStopLossOrder, haction, ← hlimit, trailingLimit]
    | sell =>
      rw [haction] at hlimit
      simp [shouldCloseTrailingStopLossOrder, haction, ← hlimit, trailingLimit]

/-! ## One order as an automaton -/

namespace PaperTradeApi

/-- One evaluation of an open order, seen alone. -/
def OrderView.next (id : String) (request : OrderRequest) (price : ℚ) (time : ℤ) (v : OrderView) :
    OrderView :=
  match triggerPrice request v.limit price with
  | none =>
    { v with limit :=
        if request.orderType = .trailingStopLoss then
          some (trailingLimit request.action (v.limit.getD price) price)
        else v.limit }
  | some fillPrice =>
    { opened := none
      limit := if request.orderType = .trailingStopLoss then none else v.limit
      closed := v.closed ++ [toOrderDescription id fillPrice time request] }

/-- The view of an order that was evaluated at the earlier prices and still waits. -/
def waitingView (request : OrderRequest) (earlier : List ℚ) : OrderView :=
  ⟨some request, storedLimit request earlier, []⟩

/-- A waiting order fills when the price meets its trigger and otherwise goes on waiting. -/
theorem next_waitingView (id : String) (request : OrderRequest) (earlier : List ℚ) (price : ℚ)
    (time : ℤ) :
    (waitingView request earlier).next id request price time =
      match matchPrice request earlier price with
      | none => waitingView request (earlier ++ [price])
      | some fillPrice =>
        ⟨none, if request.orderType = .trailingStopLoss then none else storedLimit request earlier,
          [toOrderDescription id fillPrice time request]⟩ := by
  unfold OrderView.next
  simp only [waitingView, triggerPrice_storedLimit, List.nil_append]
  cases matchPrice request earlier price with
  | some fillPrice => rfl
  | none =>
    by_cases htype : request.orderType = .trailingStopLoss
    · simp [storedLimit, htype, runningLimit_concat]
    · simp [storedLimit, htype]

variable {feed : Feed} {id : String} {request : OrderRequest} {api api' : PaperTradeApi}

/-- An evaluation that returns moves the view of its order as the automaton does. -/
theorem Evaluated.view_self {result : Bool} (hprice : feed.price request.pair ≠ 0)
    (h : Evaluated feed id request api (.ok result) api') :
    api'.view id = (api.view id).next id request (feed.price request.pair) feed.time := by
  cases h with
  | noPrice hzero => exact absurd hzero hprice
  | waiting _ htrigger =>
    rw [trigger, if_neg hprice] at htrigger
    simp only [OrderView.next, view, htrigger, noted, noteTrailing]
    split <;> simp
  | filled fillPrice htrigger =>
    rw [trigger, if_neg hprice] at htrigger
    simp only [OrderView.next, view, htrigger, PaperTradeApi.filled, dropTrailing,
      Finmap.lookup_erase, List.filter_append]
    split <;> simp [toOrderDescription]

/-- A walk does not look at an order that is not open. -/
theorem walk_view_of_stale (hstale : id ∉ api.openOrders) (ids : List String) :
    (walk feed ids api).api.view id = api.view id := by
  apply walk_preserves (P := fun api' => api'.view id = api.view id)
  · intro other _ api₁ r result api₂ hP hlookup hcase
    have hne : id ≠ other := by
      rintro rfl
      have hopened := congrArg OrderView.opened hP
      rw [show (api₁.view id).opened = some r from hlookup] at hopened
      exact hstale (Finmap.mem_of_lookup_eq_some hopened.symm)
    rw [hcase.view_of_ne hne, hP]
  · rfl

/-- A walk that returns evaluates an open order of its list once. -/
theorem walk_view_of_mem {ids : List String} (hnodup : ids.Nodup) (hid : id ∈ ids)
    (hopened : (api.view id).opened = some request) (hprice : feed.price request.pair ≠ 0)
    (hok : (walk feed ids api).result = .ok ()) :
    (walk feed ids api).api.view id =
      (api.view id).next id request (feed.price request.pair) feed.time := by
  induction ids generalizing api with
  | nil => exact absurd hid List.not_mem_nil
  | cons head rest ih =>
    obtain ⟨hhead, hrest⟩ := List.nodup_cons.mp hnodup
    by_cases hopen : head ∈ api.openOrders
    · obtain ⟨r, hlookup⟩ := Finmap.mem_iff.mp hopen
      obtain ⟨result, api', heq, hcase⟩ := tryFillOrder_evaluated feed hlookup
      rcases result with fault | paid
      · rw [walk_cons_throws hopen heq] at hok
        cases hok
      rw [(walk_cons_ok hopen heq).2] at hok
      rw [(walk_cons_ok hopen heq).1]
      rcases List.mem_cons.mp hid with rfl | hid
      · rw [show r = request from Option.some.inj (hlookup.symm.trans hopened)] at hcase
        rw [walk_view_of_notMem hhead, hcase.view_self hprice]
      · have hne : id ≠ head := fun h => hhead (h ▸ hid)
        rw [ih hrest hid ((hcase.view_of_ne hne).symm ▸ hopened) hok, hcase.view_of_ne hne]
    · have hne : id ≠ head := by
        rintro rfl
        exact hopen (Finmap.mem_of_lookup_eq_some hopened)
      rw [walk_cons_stale hopen] at hok ⊢
      exact ih hrest ((List.mem_cons.mp hid).resolve_left hne) hopened hok

/-- Registering an order leaves the views of the others alone. -/
theorem register_view_of_ne (hne : id ≠ api.nextOrderId) (request : OrderRequest) :
    (api.register request).view id = api.view id := by
  have hopen : (UnorderedMap.emplace api.openOrders api.nextOrderId request).lookup id =
      api.openOrders.lookup id := by
    unfold UnorderedMap.emplace
    split
    · rfl
    · exact Finmap.lookup_insert_of_ne _ hne
  simp only [view, register, hopen]

end PaperTradeApi

namespace Session

open PaperTradeApi

/-- Whether a call ends without the exception for missing funds. -/
def paid (s : Session) (input : Feed × Call) : Bool :=
  match (s.api.perform input.1 input.2).1 with
  | .error (.insufficientFunds _) => false
  | _ => true

/-! ## One step, seen by one order -/

section Step

variable {s : Session} {id : String} {request : OrderRequest} {feed : Feed}

/-- An id stays issued. -/
theorem step_requests_subset (input : Feed × Call) (hid : id ∈ s.requests) :
    id ∈ (s.step input).requests := by
  unfold Session.step
  split
  · exact Finmap.mem_insert.mpr (.inr hid)
  · exact hid

/-- A new order leaves the views of the issued ones alone. -/
theorem WellFormed.step_view_add (h : s.WellFormed) (hid : id ∈ s.requests) {call : Call}
    (hcall : call.request? = some request) : (s.step (feed, call)).api.view id = s.api.view id := by
  have hne : id ≠ s.api.nextOrderId := fun heq => h.nextOrderId_fresh (heq ▸ hid)
  obtain ⟨result, api', _, hcase, hstep⟩ := h.step_add feed hcall
  rw [hstep]
  exact (hcase.view_of_ne hne).trans (register_view_of_ne hne request)

/-- A cancellation takes one order out of the open ones. -/
theorem step_view_cancel (cancelled : String) :
    (s.step (feed, .cancelOrder cancelled)).api.view id =
      if id = cancelled then { s.api.view id with opened := none } else s.api.view id := by
  rw [step_cancelOrder]
  by_cases hopen : cancelled ∈ s.api.openOrders
  · simp only [if_pos hopen, view, UnorderedMap.lookup_erase_eq]
    split <;> rfl
  · simp only [if_neg hopen, view]
    split
    · next heq => rw [heq, Finmap.lookup_eq_none.mpr hopen]
    · rfl

/-- An order that is open after a call of the strategy was open before it, or is the one that the
call adds. -/
theorem WellFormed.lookup_of_step (h : s.WellFormed) {call : Call}
    (hcall : ∀ pair, call ≠ .tradeUpdate pair)
    (hopen : (s.step (feed, call)).api.openOrders.lookup id = some request) :
    call.request? = some request ∨ s.api.openOrders.lookup id = some request := by
  have hadd {added : OrderRequest} (hrequest : call.request? = some added) :
      call.request? = some request ∨ s.api.openOrders.lookup id = some request := by
    obtain ⟨result, api', -, hcase, hstep⟩ := h.step_add feed hrequest
    rw [hstep] at hopen
    have hregistered := hcase.lookup_openOrders_of_some hopen
    by_cases hid : id = s.api.nextOrderId
    · rw [hid, h.register_lookup added] at hregistered
      exact .inl (hrequest.trans hregistered)
    · have hold := congrArg OrderView.opened (register_view_of_ne hid added)
      exact .inr (hold.symm.trans hregistered)
  cases call with
  | addOrder added | addOrderConfirm added => exact hadd rfl
  | cancelOrder orderId =>
    have hopened : ((s.step (feed, .cancelOrder orderId)).api.view id).opened = some request := hopen
    rw [step_view_cancel] at hopened
    split at hopened
    · cases hopened
    · exact .inr hopened
  | tradeUpdate pair => exact absurd rfl (hcall pair)

/-- An order that is not open is not touched by a trade update. -/
theorem step_view_tradeUpdate_of_stale (hstale : id ∉ s.api.openOrders) (pair : TradablePair) :
    (s.step (feed, .tradeUpdate pair)).api.view id = s.api.view id := by
  simp only [Session.step, perform, tradeUpdateHandler_eq]
  exact walk_view_of_stale hstale _

/-- An open order is not touched by a trade update of another pair. -/
theorem WellFormed.step_view_tradeUpdate_of_ne (h : s.WellFormed)
    (hopened : (s.api.view id).opened = some request) {pair : TradablePair}
    (hpair : pair ≠ request.pair) :
    (s.step (feed, .tradeUpdate pair)).api.view id = s.api.view id := by
  have hnot : id ∉ s.api.orderIds pair := fun hid => hpair (h.pair_of_listed hopened hid).symm
  simp only [Session.step, perform, tradeUpdateHandler_eq]
  exact walk_view_of_notMem hnot _

/-- A trade update of its pair that returns evaluates an open order once. -/
theorem WellFormed.step_view_tradeUpdate (h : s.WellFormed)
    (hopened : (s.api.view id).opened = some request) (hprice : feed.price request.pair ≠ 0)
    (hpaid : s.paid (feed, .tradeUpdate request.pair)) :
    (s.step (feed, .tradeUpdate request.pair)).api.view id =
      (s.api.view id).next id request (feed.price request.pair) feed.time := by
  have hok : (PaperTradeApi.walk feed (s.api.orderIds request.pair) s.api).result = .ok () := by
    rcases hresult : (PaperTradeApi.walk feed (s.api.orderIds request.pair) s.api).result with fault | _
    · obtain ⟨asset, rfl⟩ := walk_result_error hresult
      simp [paid, perform, tradeUpdateHandler_eq, hresult, Except.map] at hpaid
    · rfl
  simp only [Session.step, perform, tradeUpdateHandler_eq]
  exact walk_view_of_mem (h.list_nodup _) (h.listed id request hopened) hopened hprice hok

/-- An order that is no longer open is never touched again. -/
theorem WellFormed.step_view_of_stale (h : s.WellFormed) (hid : id ∈ s.requests)
    (hstale : id ∉ s.api.openOrders) (input : Feed × Call) :
    (s.step input).api.view id = s.api.view id := by
  obtain ⟨feed, call⟩ := input
  cases call with
  | addOrder request | addOrderConfirm request => exact h.step_view_add hid rfl
  | cancelOrder cancelled =>
    rw [step_view_cancel]
    split
    · rw [show (none : Option OrderRequest) = (s.api.view id).opened from
        (Finmap.lookup_eq_none.mpr hstale).symm]
    · rfl
  | tradeUpdate pair => exact step_view_tradeUpdate_of_stale hstale pair

end Step

/-! ## The run of one order -/

/-- An order that still waits after the earlier evaluations. -/
structure Waiting (s : Session) (id : String) (request : OrderRequest) (earlier : List ℚ) :
    Prop where
  wellFormed : s.WellFormed
  view_eq : s.api.view id = waitingView request earlier

/-- An order that was filled or cancelled. -/
structure Done (s : Session) (id : String) (closed : List OrderDescription) : Prop where
  wellFormed : s.WellFormed
  issued : id ∈ s.requests
  opened_eq : (s.api.view id).opened = none
  closed_eq : (s.api.view id).closed = closed

variable {s : Session} {id : String} {request : OrderRequest} {earlier : List ℚ}

/-- A waiting order is open with its request. -/
theorem Waiting.opened_eq (h : s.Waiting id request earlier) :
    (s.api.view id).opened = some request := by
  rw [h.view_eq, waitingView]

/-- The id of a waiting order has been issued. -/
theorem Waiting.issued (h : s.Waiting id request earlier) : id ∈ s.requests :=
  h.wellFormed.open_issued (Finmap.mem_of_lookup_eq_some h.opened_eq)

/-- One evaluation fills a waiting order or lets it wait on. -/
theorem Waiting.evaluated {s' : Session} (h : s.Waiting id request earlier) {price : ℚ} {time : ℤ}
    (hwell : s'.WellFormed) (hissued : id ∈ s'.requests)
    (hview : s'.api.view id = (s.api.view id).next id request price time) :
    match matchPrice request earlier price with
    | none => s'.Waiting id request (earlier ++ [price])
    | some fillPrice => s'.Done id [toOrderDescription id fillPrice time request] := by
  rw [h.view_eq, next_waitingView] at hview
  cases hmatch : matchPrice request earlier price with
  | none =>
    rw [hmatch] at hview
    exact ⟨hwell, hview⟩
  | some fillPrice =>
    rw [hmatch] at hview
    exact ⟨hwell, hissued, by rw [hview], by rw [hview]⟩

/-- Nothing more happens to an order that is done. -/
theorem Done.run {closed : List OrderDescription} (h : s.Done id closed)
    (after : List (Feed × Call)) : (after.foldl step s).Done id closed := by
  refine foldl_invariant (I := fun s : Session => s.Done id closed) ?_ after h
  intro s input h
  have hview := h.wellFormed.step_view_of_stale h.issued (Finmap.lookup_eq_none.mp h.opened_eq) input
  exact ⟨h.wellFormed.step input, step_requests_subset input h.issued, hview ▸ h.opened_eq,
    hview ▸ h.closed_eq⟩

/-- What the reference says about an order in a later state: the fill it has had, and that it is
open while it has neither been filled nor cancelled. -/
def Matches (s : Session) (id : String) (request : OrderRequest) (fill : Option (ℚ × ℤ))
    (cancelled : Prop) : Prop :=
  s.api.closedOrders.filter (·.orderId = id) =
      (fill.map fun f => toOrderDescription id f.1 f.2 request).toList ∧
    (id ∈ s.api.openOrders ↔ fill = none ∧ ¬ cancelled)

/-- A done order matches the fill that closed it. -/
theorem Done.matches (fill : Option (ℚ × ℤ)) {cancelled : Prop}
    (h : s.Done id (fill.map fun f => toOrderDescription id f.1 f.2 request).toList)
    (hdone : fill = none → cancelled) : s.Matches id request fill cancelled := by
  refine ⟨h.closed_eq, ?_⟩
  have hnot : id ∉ s.api.openOrders := Finmap.lookup_eq_none.mp h.opened_eq
  simp only [hnot, false_iff, not_and, not_not]
  exact hdone

/-- A waiting order is filled at the first of the evaluations still to come that meets its
trigger. -/
theorem Waiting.run {after : List (Feed × Call)} (h : s.Waiting id request earlier)
    (hprices : ∀ input ∈ after, 0 < input.1.price request.pair)
    (hpaid : EveryStep step (fun s input => s.paid input) s after) :
    (after.foldl step s).Matches id request
      (firstFill request earlier (evaluations id request.pair after)) (CancelledIn id after) := by
  induction after generalizing s earlier with
  | nil =>
    have hopen : id ∈ s.api.openOrders := Finmap.mem_of_lookup_eq_some h.opened_eq
    refine ⟨congrArg OrderView.closed h.view_eq, ?_⟩
    simp [hopen, firstFill, evaluations, CancelledIn]
  | cons input rest ih =>
    obtain ⟨feed, call⟩ := input
    obtain ⟨hnow, hrest⟩ := hpaid
    have hlater : ∀ input ∈ rest, 0 < input.1.price request.pair :=
      fun input hmem => hprices input (List.mem_cons_of_mem _ hmem)
    have hwell := h.wellFormed.step (feed, call)
    -- a step that does not concern the order
    have hpass (hview : (s.step (feed, call)).api.view id = s.api.view id)
        (hevals : evaluations id request.pair ((feed, call) :: rest) =
          evaluations id request.pair rest)
        (hcancelled : CancelledIn id ((feed, call) :: rest) ↔ CancelledIn id rest) :
        (((feed, call) :: rest).foldl step s).Matches id request
          (firstFill request earlier (evaluations id request.pair ((feed, call) :: rest)))
          (CancelledIn id ((feed, call) :: rest)) := by
      rw [hevals, propext hcancelled]
      exact ih ⟨hwell, hview.trans h.view_eq⟩ hlater hrest
    cases call with
    | addOrder other | addOrderConfirm other =>
      exact hpass (h.wellFormed.step_view_add h.issued rfl) rfl (by simp [CancelledIn])
    | cancelOrder cancelled =>
      by_cases hid : cancelled = id
      · subst hid
        have hdone : (s.step (feed, .cancelOrder cancelled)).Done cancelled [] := by
          refine ⟨hwell, step_requests_subset _ h.issued, ?_, ?_⟩
          · rw [step_view_cancel, if_pos rfl]
          · rw [step_view_cancel, if_pos rfl, h.view_eq, waitingView]
        rw [evaluations, if_pos rfl, firstFill]
        exact (hdone.run rest).matches none fun _ => ⟨feed, List.mem_cons_self⟩
      · refine hpass ?_ ?_ ?_
        · rw [step_view_cancel, if_neg (Ne.symm hid)]
        · rw [evaluations, if_neg hid]
        · simp [CancelledIn, Ne.symm hid]
    | tradeUpdate pair =>
      by_cases hpair : pair = request.pair
      · subst hpair
        have hprice := hprices (feed, .tradeUpdate request.pair) List.mem_cons_self
        have hnext := h.evaluated hwell (step_requests_subset _ h.issued)
          (h.wellFormed.step_view_tradeUpdate h.opened_eq (ne_of_gt hprice) hnow)
        have hcancelled : CancelledIn id ((feed, .tradeUpdate request.pair) :: rest) ↔
            CancelledIn id rest := by simp [CancelledIn]
        rw [evaluations, if_pos rfl, firstFill, propext hcancelled]
        cases hmatch : matchPrice request earlier (feed.price request.pair) with
        | none =>
          rw [hmatch] at hnext
          exact ih hnext hlater hrest
        | some fillPrice =>
          rw [hmatch] at hnext
          exact (hnext.run rest).matches (some (fillPrice, feed.time)) (by simp)
      · refine hpass (h.wellFormed.step_view_tradeUpdate_of_ne h.opened_eq hpair) ?_ ?_
        · rw [evaluations, if_neg hpair]
        · simp [CancelledIn]

/-- The call that issues an order evaluates it once. -/
theorem WellFormed.issue (h : s.WellFormed) {feed : Feed} {call : Call}
    (hcall : call.request? = some request) (hprice : feed.price request.pair ≠ 0)
    (hpaid : s.paid (feed, call)) :
    match matchPrice request [] (feed.price request.pair) with
    | none => (s.step (feed, call)).Waiting s.api.nextOrderId request [feed.price request.pair]
    | some fillPrice => (s.step (feed, call)).Done s.api.nextOrderId
        [toOrderDescription s.api.nextOrderId fillPrice feed.time request] := by
  have hregistered := h.register request
  have hlookup := h.register_lookup request
  have hclosed : s.api.closedOrders.filter (·.orderId = s.api.nextOrderId) = [] := by
    refine List.filter_eq_nil_iff.mpr fun order horder heq => h.nextOrderId_fresh ?_
    exact h.closed_issued (List.mem_map.mpr ⟨order, horder, by simpa using heq⟩)
  have hlimit : s.api.trailingOrderLimits.lookup s.api.nextOrderId = none :=
    Finmap.lookup_eq_none.mpr fun hmem => h.nextOrderId_fresh (h.limits_issued _ hmem)
  have hview : (s.api.register request).view s.api.nextOrderId = waitingView request [] := by
    have hstored : storedLimit request [] = none := by simp [storedLimit, runningLimit]
    rw [view, hlookup, waitingView, hstored]
    simp only [PaperTradeApi.register, hlimit, hclosed]
  obtain ⟨result, api', heq, hcase, hstep⟩ := h.step_add feed hcall
  rcases result with fault | result
  · cases hcase with
    | unpaid fillPrice =>
      cases call with
      | addOrder r | addOrderConfirm r =>
        cases hcall
        simp [paid, perform, addOrderConfirm, addOrder, heq, Except.map] at hpaid
      | cancelOrder | tradeUpdate => cases hcall
  · have hwaiting : Waiting { s with
        api := s.api.register request
        requests := s.requests.insert s.api.nextOrderId request } s.api.nextOrderId request [] :=
      ⟨hregistered, hview⟩
    have hwell := h.step (feed, call)
    rw [hstep] at hwell ⊢
    exact hwaiting.evaluated hwell (Finmap.mem_insert.mpr (.inl rfl)) (hcase.view_self hprice)

/-- In a run in which no fill throws, every order is closed at the first of its evaluations that
meets its trigger, once and at the fill price of its type, unless it is cancelled before; and
it is open as long as neither has happened. -/
theorem run_matches (config : PaperTradingConfig) (before after : List (Feed × Call)) (feed : Feed)
    (call : Call) (request : OrderRequest) (hcall : call.request? = some request)
    (hprices : ∀ input ∈ (feed, call) :: after, 0 < input.1.price request.pair)
    (hpaid : EveryStep step (fun s input => s.paid input) (Session.start config)
      (before ++ (feed, call) :: after)) :
    (Session.run config (before ++ (feed, call) :: after)).Matches
      (Session.run config before).api.nextOrderId request
      (firstFill request [] ((feed.price request.pair, feed.time) ::
        evaluations (Session.run config before).api.nextOrderId request.pair after))
      (CancelledIn (Session.run config before).api.nextOrderId after) := by
  obtain ⟨_, hnow, hrest⟩ := (everyStep_append _ _ _).mp hpaid
  have hprice := hprices (feed, call) List.mem_cons_self
  have hissue := (WellFormed.run config before).issue hcall (ne_of_gt hprice) hnow
  rw [Session.run, List.foldl_append, List.foldl_cons, firstFill]
  cases hmatch : matchPrice request [] (feed.price request.pair) with
  | none =>
    rw [hmatch] at hissue
    exact hissue.run (fun input hmem => hprices input (List.mem_cons_of_mem _ hmem)) hrest
  | some fillPrice =>
    rw [hmatch] at hissue
    exact (hissue.run after).matches (some (fillPrice, feed.time)) (by simp)

/-- A trailing order to buy with a delta of one tenth follows the price from 20 down to 15 and
fills when it has risen to 18, beside a limit order of the same pair. -/
theorem run_matches_trailing_buy :
    let pair : TradablePair := ⟨"BTC", "GBP"⟩
    let before := [(Feed.quote 20, Call.addOrder (createLimitOrder pair .buy 16 5))]
    let request := createTrailingStopLossOrder pair .buy (1 / 10) 1
    let after := [(Feed.quote 15 1, Call.tradeUpdate pair), (Feed.quote 18 2, Call.tradeUpdate pair)]
    (Session.run ⟨1, [("GBP", 1000)]⟩ (before ++ (Feed.quote 20, .addOrder request) :: after)).Matches
      "2" request (some (18, 2)) (CancelledIn "2" after) := by
  intro pair before request after
  have h := run_matches ⟨1, [("GBP", 1000)]⟩ before after (Feed.quote 20) (.addOrder request) request
    rfl (by decide +kernel) (by decide +kernel)
  have hid : (Session.run ⟨1, [("GBP", 1000)]⟩ before).api.nextOrderId = "2" := by decide +kernel
  have hfill : firstFill request [] (((Feed.quote 20).price request.pair, (Feed.quote 20).time) ::
      evaluations "2" request.pair after) = some (18, 2) := by decide +kernel
  rwa [hid, hfill] at h

end Session

end MarketBlocks
