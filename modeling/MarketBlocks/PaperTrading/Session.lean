import MarketBlocks.PaperTrading.TradeUpdate
import MarketBlocks.Library.Runs
import Std.Data.String.ToNat

/-!
# Sessions of the paper trading account

A session is a run of the public calls and of trade updates, each with what the stream and
the clock show while it runs. Beside the account it keeps two history variables that the
code does not have: the request of every id that was ever issued, and the cancelled ids.

`Session.WellFormed` is the life-cycle invariant. Every call is made of four moves, the
registration of an order, the evaluation of an open order, the replacement of an id list by
a part of it and the removal of a cancelled order, and each move keeps it.
-/

namespace MarketBlocks

open Library

/-- What the account is called for. -/
inductive Call where
  | addOrder (request : OrderRequest)
  | addOrderConfirm (request : OrderRequest)
  | cancelOrder (orderId : String)
  | tradeUpdate (pair : TradablePair)

/-- The order that a call registers. -/
def Call.request? : Call → Option OrderRequest
  | .addOrder request | .addOrderConfirm request => some request
  | .cancelOrder _ | .tradeUpdate _ => none

/-- What a call returns. -/
inductive Reply where
  | orderId (orderId : String)
  | confirmation (confirmation : OrderConfirmation)
  | done

namespace PaperTradeApi

/-- A call, with what the account reads meanwhile. -/
def perform (feed : Feed) (call : Call) (api : PaperTradeApi) : Except Fault Reply × PaperTradeApi :=
  match call with
  | .addOrder request =>
    let (result, api) := addOrder feed request api
    (result.map .orderId, api)
  | .addOrderConfirm request =>
    let (result, api) := addOrderConfirm feed request api
    (result.map .confirmation, api)
  | .cancelOrder orderId =>
    let (result, api) := cancelOrder orderId api
    (result.map fun _ => .done, api)
  | .tradeUpdate pair =>
    let (result, api) := tradeUpdateHandler feed pair api
    (result.map fun _ => .done, api)

/-- The evaluations of a call. -/
def callEvaluations (feed : Feed) (call : Call) (api : PaperTradeApi) : List Evaluation :=
  match call with
  | .addOrder request | .addOrderConfirm request =>
    [{ feed, api := api.register request, id := api.nextOrderId, request }]
  | .cancelOrder _ => []
  | .tradeUpdate pair => walkEvaluations feed (api.orderIds pair) api

/-- The account of `add_order` is the one that the attempted fill leaves. -/
theorem addOrder_snd (feed : Feed) (request : OrderRequest) (api : PaperTradeApi) :
    (addOrder feed request api).2 = (tryFillOrder feed api.nextOrderId (api.register request)).2 := by
  rw [addOrder]
  rcases tryFillOrder feed api.nextOrderId (api.register request) with ⟨_ | _, _⟩ <;> rfl

/-- A confirmed order moves the account as a plain one does. -/
theorem addOrderConfirm_snd (feed : Feed) (request : OrderRequest) (api : PaperTradeApi) :
    (addOrderConfirm feed request api).2 = (addOrder feed request api).2 := by
  rw [addOrderConfirm]
  rcases addOrder feed request api with ⟨_ | _, _⟩ <;> rfl

/-- A call that registers an order ends with the first evaluation of that order. -/
theorem perform_snd_of_request {feed : Feed} {call : Call} {request : OrderRequest}
    (h : call.request? = some request) (api : PaperTradeApi) :
    (perform feed call api).2 = (tryFillOrder feed api.nextOrderId (api.register request)).2 := by
  cases call with
  | addOrder r =>
    cases h
    exact addOrder_snd feed request api
  | addOrderConfirm r =>
    cases h
    exact (addOrderConfirm_snd feed request api).trans (addOrder_snd feed request api)
  | cancelOrder | tradeUpdate => cases h

/-- The ids on the closed orders, in the order they were closed. -/
def closedIds (api : PaperTradeApi) : List String := api.closedOrders.map (·.orderId)

end PaperTradeApi

/-- An account with its history. -/
structure Session where
  api : PaperTradeApi
  /-- The request behind every id that was issued, whatever became of the call. -/
  requests : UnorderedMap String OrderRequest
  /-- The ids whose cancellation returned. -/
  cancelled : List String

namespace Session

/-- The account of a fresh session holds the configured balances. -/
def start (config : PaperTradingConfig) : Session := ⟨.create config, ∅, []⟩

/-- One call, with the history it adds. -/
def step (s : Session) (input : Feed × Call) : Session where
  api := (s.api.perform input.1 input.2).2
  requests :=
    match input.2.request? with
    | some request => s.requests.insert s.api.nextOrderId request
    | none => s.requests
  cancelled :=
    match input.2, (s.api.perform input.1 input.2).1 with
    | .cancelOrder orderId, .ok _ => s.cancelled ++ [orderId]
    | _, _ => s.cancelled

/-- A session from its start. -/
def run (config : PaperTradingConfig) (inputs : List (Feed × Call)) : Session :=
  inputs.foldl step (start config)

/-- A cancellation takes an open order out and does nothing about any other id. -/
theorem step_cancelOrder (s : Session) (feed : Feed) (orderId : String) :
    s.step (feed, .cancelOrder orderId) =
      if orderId ∈ s.api.openOrders then
        { s with
          api := { s.api with openOrders := s.api.openOrders.erase orderId }
          cancelled := s.cancelled ++ [orderId] }
      else s := by
  by_cases hopen : orderId ∈ s.api.openOrders
  · simp [step, PaperTradeApi.perform, PaperTradeApi.cancelOrder, Call.request?, hopen, Except.map]
  · simp [step, PaperTradeApi.perform, PaperTradeApi.cancelOrder, Call.request?, hopen, Except.map]

/-- The life-cycle invariant. -/
structure WellFormed (s : Session) : Prop where
  next_pos : 1 ≤ s.api.nextOrderNumber
  issued : ∀ id, id ∈ s.requests ↔ ∃ n, 1 ≤ n ∧ n < s.api.nextOrderNumber ∧ id = n.repr
  open_request : ∀ id request, s.api.openOrders.lookup id = some request →
    s.requests.lookup id = some request
  closed_request : ∀ order ∈ s.api.closedOrders, ∃ request,
    s.requests.lookup order.orderId = some request ∧
      order = toOrderDescription order.orderId order.price order.timeStamp request
  cancelled_issued : ∀ id ∈ s.cancelled, id ∈ s.requests
  accounted : ∀ id ∈ s.requests, id ∈ s.api.openOrders ∨ id ∈ s.api.closedIds ∨ id ∈ s.cancelled
  open_not_closed : ∀ id ∈ s.api.openOrders, id ∉ s.api.closedIds
  open_not_cancelled : ∀ id ∈ s.api.openOrders, id ∉ s.cancelled
  closed_not_cancelled : ∀ id ∈ s.api.closedIds, id ∉ s.cancelled
  closed_nodup : s.api.closedIds.Nodup
  listed : ∀ id request, s.api.openOrders.lookup id = some request →
    id ∈ s.api.orderIds request.pair
  list_nodup : ∀ pair, (s.api.orderIds pair).Nodup
  list_request : ∀ pair, ∀ id ∈ s.api.orderIds pair, ∃ request,
    s.requests.lookup id = some request ∧ request.pair = pair
  limits_issued : ∀ id ∈ s.api.trailingOrderLimits, id ∈ s.requests

namespace WellFormed

variable {s : Session}

/-- The next id was never issued. -/
theorem nextOrderId_fresh (h : s.WellFormed) : s.api.nextOrderId ∉ s.requests := by
  intro hmem
  obtain ⟨n, _, hlt, heq⟩ := (h.issued _).mp hmem
  have hn : s.api.nextOrderNumber = n := Nat.repr_inj.mp heq
  omega

/-- An open order carries an issued id. -/
theorem open_issued (h : s.WellFormed) {id : String} (hopen : id ∈ s.api.openOrders) :
    id ∈ s.requests := by
  obtain ⟨request, hlookup⟩ := Finmap.mem_iff.mp hopen
  exact Finmap.mem_of_lookup_eq_some (h.open_request id request hlookup)

/-- A closed order carries an issued id. -/
theorem closed_issued (h : s.WellFormed) {id : String} (hclosed : id ∈ s.api.closedIds) :
    id ∈ s.requests := by
  obtain ⟨order, horder, rfl⟩ := List.mem_map.mp hclosed
  obtain ⟨request, hlookup, _⟩ := h.closed_request order horder
  exact Finmap.mem_of_lookup_eq_some hlookup

/-- Only the requests of a pair are listed under it. -/
theorem pair_of_listed (h : s.WellFormed) {id : String} {request : OrderRequest}
    {pair : TradablePair} (hopen : s.api.openOrders.lookup id = some request)
    (hlisted : id ∈ s.api.orderIds pair) : request.pair = pair := by
  obtain ⟨other, hother, hpair⟩ := h.list_request pair id hlisted
  rw [h.open_request id request hopen] at hother
  cases hother
  exact hpair

/-- The lists of distinct pairs have no order in common. -/
theorem nodup_flatMap_orderIds (h : s.WellFormed) {pairs : List TradablePair}
    (hpairs : pairs.Nodup) : (pairs.flatMap s.api.orderIds).Nodup := by
  refine List.nodup_flatMap.mpr ⟨fun pair _ => h.list_nodup pair, hpairs.imp ?_⟩
  intro pair other hne id hid hother
  obtain ⟨request, hrequest, hpair⟩ := h.list_request pair id hid
  obtain ⟨request', hrequest', hpair'⟩ := h.list_request other id hother
  rw [hrequest] at hrequest'
  cases hrequest'
  exact hne (hpair.symm.trans hpair')

/-- A fresh session is well formed. -/
theorem start (config : PaperTradingConfig) : (Session.start config).WellFormed where
  next_pos := le_rfl
  issued := by
    intro id
    refine ⟨fun h => absurd h Finmap.notMem_empty, ?_⟩
    rintro ⟨n, hpos, hlt, _⟩
    simp only [Session.start, PaperTradeApi.create] at hlt
    omega
  open_request := by simp [Session.start, PaperTradeApi.create]
  closed_request := by simp [Session.start, PaperTradeApi.create]
  cancelled_issued := by simp [Session.start]
  accounted := fun id h => absurd h Finmap.notMem_empty
  open_not_closed := fun id h => absurd h Finmap.notMem_empty
  open_not_cancelled := by simp [Session.start]
  closed_not_cancelled := by simp [Session.start]
  closed_nodup := by simp [Session.start, PaperTradeApi.create, PaperTradeApi.closedIds]
  listed := by simp [Session.start, PaperTradeApi.create]
  list_nodup := fun _ => List.nodup_nil
  list_request := fun _ id h => absurd h List.not_mem_nil
  limits_issued := fun id h => absurd h Finmap.notMem_empty

/-! ## The four moves -/

/-- Moves that leave the orders, their lists and the counter alone keep the invariant. -/
theorem of_same (h : s.WellFormed) {api : PaperTradeApi}
    (hopen : api.openOrders = s.api.openOrders) (hclosed : api.closedOrders = s.api.closedOrders)
    (hlists : api.openOrdersByPair = s.api.openOrdersByPair)
    (hnext : api.nextOrderNumber = s.api.nextOrderNumber)
    (hlimits : ∀ id ∈ api.trailingOrderLimits, id ∈ s.requests) :
    ({ s with api } : Session).WellFormed := by
  obtain ⟨api₀, requests, cancelled⟩ := s
  obtain ⟨fee, limits, balances, openOrders, lists, closed, next⟩ := api₀
  obtain ⟨fee', limits', balances', openOrders', lists', closed', next'⟩ := api
  simp only at hopen hclosed hlists hnext
  subst hopen hclosed hlists hnext
  exact ⟨h.next_pos, h.issued, h.open_request, h.closed_request, h.cancelled_issued, h.accounted,
    h.open_not_closed, h.open_not_cancelled, h.closed_not_cancelled, h.closed_nodup, h.listed,
    h.list_nodup, h.list_request, hlimits⟩

/-- The next id is not open yet, so registering an order is a plain insertion. -/
theorem register_openOrders (h : s.WellFormed) (request : OrderRequest) :
    (s.api.register request).openOrders = s.api.openOrders.insert s.api.nextOrderId request := by
  have hopen : s.api.nextOrderId ∉ s.api.openOrders := fun hmem => h.nextOrderId_fresh (h.open_issued hmem)
  rw [PaperTradeApi.register, UnorderedMap.emplace_of_notMem hopen]

/-- A registered order is stored under its id. -/
theorem register_lookup (h : s.WellFormed) (request : OrderRequest) :
    (s.api.register request).openOrders.lookup s.api.nextOrderId = some request := by
  rw [h.register_openOrders, Finmap.lookup_insert]

/-- A request stays under its id when the next id is issued. -/
theorem lookup_issue (h : s.WellFormed) {id : String} {old : OrderRequest}
    (hold : s.requests.lookup id = some old) (request : OrderRequest) :
    Finmap.lookup id (s.requests.insert s.api.nextOrderId request) = some old := by
  have hne : id ≠ s.api.nextOrderId :=
    fun heq => h.nextOrderId_fresh (heq ▸ Finmap.mem_of_lookup_eq_some hold)
  rw [Finmap.lookup_insert_of_ne _ hne, hold]

/-- The ids issued are those of the numbers below the next one. -/
theorem mem_issue (h : s.WellFormed) (request : OrderRequest) (id : String) :
    id ∈ Finmap.insert s.api.nextOrderId request s.requests ↔
      ∃ n, 1 ≤ n ∧ n < s.api.nextOrderNumber + 1 ∧ id = n.repr := by
  rw [Finmap.mem_insert, h.issued]
  constructor
  · rintro (rfl | ⟨n, hpos, hlt, heq⟩)
    · exact ⟨_, h.next_pos, Nat.lt_succ_self _, rfl⟩
    · exact ⟨n, hpos, by omega, heq⟩
  · rintro ⟨n, hpos, hlt, rfl⟩
    by_cases heq : n = s.api.nextOrderNumber
    · exact .inl (heq ▸ rfl)
    · exact .inr ⟨n, hpos, by omega, rfl⟩

/-- Registering an order under the next id keeps the invariant. -/
theorem register (h : s.WellFormed) (request : OrderRequest) :
    ({ s with
        api := s.api.register request
        requests := s.requests.insert s.api.nextOrderId request } : Session).WellFormed := by
  have hfresh := h.nextOrderId_fresh
  have hlookup (id : String) : (s.api.register request).openOrders.lookup id =
      if id = s.api.nextOrderId then some request else s.api.openOrders.lookup id := by
    rw [h.register_openOrders, UnorderedMap.lookup_insert_eq]
  have hmem (id : String) : id ∈ (s.api.register request).openOrders ↔
      id = s.api.nextOrderId ∨ id ∈ s.api.openOrders := by
    rw [h.register_openOrders, Finmap.mem_insert]
  have hids (pair : TradablePair) : (s.api.register request).orderIds pair =
      if pair = request.pair then s.api.orderIds request.pair ++ [s.api.nextOrderId]
      else s.api.orderIds pair := UnorderedMap.findOrDefault_insert _ _ _ _
  constructor
  case next_pos => exact Nat.le_succ_of_le h.next_pos
  case issued => exact h.mem_issue request
  case open_request =>
    intro id other hother
    rw [hlookup] at hother
    split at hother
    · next heq => rw [heq, ← hother, Finmap.lookup_insert]
    · exact h.lookup_issue (h.open_request id other hother) request
  case closed_request =>
    intro order horder
    obtain ⟨other, hother, heq⟩ := h.closed_request order horder
    exact ⟨other, h.lookup_issue hother request, heq⟩
  case cancelled_issued =>
    exact fun id hid => Finmap.mem_insert.mpr (.inr (h.cancelled_issued id hid))
  case accounted =>
    intro id hid
    rcases Finmap.mem_insert.mp hid with rfl | hid
    · exact .inl ((hmem _).mpr (.inl rfl))
    · exact (h.accounted id hid).imp_left fun hopen => (hmem id).mpr (.inr hopen)
  case open_not_closed =>
    intro id hid hclosed
    rcases (hmem id).mp hid with rfl | hid
    · exact hfresh (h.closed_issued hclosed)
    · exact h.open_not_closed id hid hclosed
  case open_not_cancelled =>
    intro id hid hcancelled
    rcases (hmem id).mp hid with rfl | hid
    · exact hfresh (h.cancelled_issued _ hcancelled)
    · exact h.open_not_cancelled id hid hcancelled
  case closed_not_cancelled => exact h.closed_not_cancelled
  case closed_nodup => exact h.closed_nodup
  case listed =>
    intro id other hother
    rw [hlookup] at hother
    rw [hids]
    split at hother
    · next heq =>
      cases hother
      simp [heq]
    · next hid =>
      have hlisted := h.listed id other hother
      split
      · next hpair => exact List.mem_append_left _ (hpair ▸ hlisted)
      · exact hlisted
  case list_nodup =>
    intro pair
    rw [hids]
    split
    · refine List.nodup_append.mpr ⟨h.list_nodup _, List.nodup_singleton _, ?_⟩
      intro id hid other hother heq
      obtain ⟨old, hold, _⟩ := h.list_request _ id hid
      rw [heq, List.mem_singleton.mp hother] at hold
      exact hfresh (Finmap.mem_of_lookup_eq_some hold)
    · exact h.list_nodup pair
  case list_request =>
    intro pair id hid
    rw [hids] at hid
    have hold (hid : id ∈ s.api.orderIds pair) : ∃ other,
        Finmap.lookup id (s.requests.insert s.api.nextOrderId request) = some other ∧
          other.pair = pair := by
      obtain ⟨other, hother, hpair⟩ := h.list_request pair id hid
      exact ⟨other, h.lookup_issue hother request, hpair⟩
    split at hid
    · next hpair =>
      rcases List.mem_append.mp hid with hid | hid
      · exact hold (hpair ▸ hid)
      · rw [List.mem_singleton.mp hid]
        exact ⟨request, Finmap.lookup_insert _, hpair.symm⟩
    · exact hold hid
  case limits_issued =>
    exact fun id hid => Finmap.mem_insert.mpr (.inr (h.limits_issued id hid))

/-- Closing an open order keeps the invariant. -/
theorem close (h : s.WellFormed) {id : String} {request : OrderRequest}
    (hlookup : s.api.openOrders.lookup id = some request) (fillPrice : ℚ) (time : ℤ)
    (balances : UnorderedMap String ℕ) {limits : UnorderedMap String ℚ}
    (hlimits : ∀ other ∈ limits, other ∈ s.requests) :
    ({ s with api := { s.api with
        trailingOrderLimits := limits
        balances := balances
        closedOrders := s.api.closedOrders ++ [toOrderDescription id fillPrice time request]
        openOrders := s.api.openOrders.erase id } } : Session).WellFormed := by
  have hopen : id ∈ s.api.openOrders := Finmap.mem_of_lookup_eq_some hlookup
  have hmem {other : String} (hother : other ∈ s.api.openOrders.erase id) :
      other ≠ id ∧ other ∈ s.api.openOrders := Finmap.mem_erase.mp hother
  have herase {other : String} {r : OrderRequest}
      (hother : (s.api.openOrders.erase id).lookup other = some r) :
      s.api.openOrders.lookup other = some r := by
    rwa [Finmap.lookup_erase_ne (hmem (Finmap.mem_of_lookup_eq_some hother)).1] at hother
  have hids : (s.api.closedOrders ++ [toOrderDescription id fillPrice time request]).map
      (·.orderId) = s.api.closedIds ++ [id] := by
    simp [PaperTradeApi.closedIds, toOrderDescription]
  constructor
  case next_pos => exact h.next_pos
  case issued => exact h.issued
  case open_request => exact fun other r hother => h.open_request other r (herase hother)
  case closed_request =>
    intro order horder
    rcases List.mem_append.mp horder with horder | horder
    · exact h.closed_request order horder
    · rw [List.mem_singleton.mp horder]
      exact ⟨request, h.open_request id request hlookup, rfl⟩
  case cancelled_issued => exact h.cancelled_issued
  case accounted =>
    intro other hother
    by_cases heq : other = id
    · exact .inr (.inl (by simp [PaperTradeApi.closedIds, heq, toOrderDescription]))
    · rcases h.accounted other hother with hin | hin | hin
      · exact .inl (Finmap.mem_erase.mpr ⟨heq, hin⟩)
      · exact .inr (.inl (by rw [PaperTradeApi.closedIds, hids]; exact List.mem_append_left _ hin))
      · exact .inr (.inr hin)
  case open_not_closed =>
    intro other hother hclosed
    rw [PaperTradeApi.closedIds, hids, List.mem_append, List.mem_singleton] at hclosed
    exact hclosed.elim (h.open_not_closed other (hmem hother).2) (hmem hother).1
  case open_not_cancelled => exact fun other hother => h.open_not_cancelled other (hmem hother).2
  case closed_not_cancelled =>
    intro other hclosed
    rw [PaperTradeApi.closedIds, hids, List.mem_append, List.mem_singleton] at hclosed
    rcases hclosed with hclosed | rfl
    · exact h.closed_not_cancelled other hclosed
    · exact h.open_not_cancelled other hopen
  case closed_nodup =>
    rw [PaperTradeApi.closedIds, hids]
    refine List.nodup_append.mpr ⟨h.closed_nodup, List.nodup_singleton _, ?_⟩
    rintro other hother _ hid rfl
    rw [List.mem_singleton.mp hid] at hother
    exact h.open_not_closed id hopen hother
  case listed => exact fun other r hother => h.listed other r (herase hother)
  case list_nodup => exact h.list_nodup
  case list_request => exact h.list_request
  case limits_issued => exact hlimits

/-- Every evaluation of an open order keeps the invariant. -/
theorem evaluated (h : s.WellFormed) {feed : Feed} {id : String} {request : OrderRequest}
    {result : Except Fault Bool} {api' : PaperTradeApi}
    (hlookup : s.api.openOrders.lookup id = some request)
    (hcase : PaperTradeApi.Evaluated feed id request s.api result api') :
    ({ s with api := api' } : Session).WellFormed := by
  have hissued : id ∈ s.requests := h.open_issued (Finmap.mem_of_lookup_eq_some hlookup)
  have hlimits : ∀ other ∈ api'.trailingOrderLimits, other ∈ s.requests := by
    intro other hother
    rcases hcase.mem_limits hother with rfl | hother
    · exact hissued
    · exact h.limits_issued other hother
  cases hcase with
  | noPrice => exact h
  | waiting | unpaid => exact h.of_same rfl rfl rfl rfl hlimits
  | filled fillPrice => exact h.close hlookup _ _ _ hlimits

/-- Replacing an id list by a part of it that keeps the open orders keeps the invariant. -/
theorem setOrderIds (h : s.WellFormed) {pair : TradablePair} {ids : List String}
    (hsub : ids.Sublist (s.api.orderIds pair))
    (hkeep : ∀ id ∈ s.api.orderIds pair, id ∈ s.api.openOrders → id ∈ ids) :
    ({ s with api := s.api.setOrderIds pair ids } : Session).WellFormed where
  next_pos := h.next_pos
  issued := h.issued
  open_request := h.open_request
  closed_request := h.closed_request
  cancelled_issued := h.cancelled_issued
  accounted := h.accounted
  open_not_closed := h.open_not_closed
  open_not_cancelled := h.open_not_cancelled
  closed_not_cancelled := h.closed_not_cancelled
  closed_nodup := h.closed_nodup
  listed := by
    intro id request hlookup
    have hlisted := h.listed id request hlookup
    rw [PaperTradeApi.orderIds_setOrderIds]
    split
    · next hpair =>
      exact hkeep id (hpair ▸ hlisted) (Finmap.mem_of_lookup_eq_some hlookup)
    · exact hlisted
  list_nodup := by
    intro other
    rw [PaperTradeApi.orderIds_setOrderIds]
    split
    · exact hsub.nodup (h.list_nodup pair)
    · exact h.list_nodup other
  list_request := by
    intro other id hid
    rw [PaperTradeApi.orderIds_setOrderIds] at hid
    split at hid
    · next hpair => exact hpair ▸ h.list_request pair id (hsub.subset hid)
    · exact h.list_request other id hid
  limits_issued := h.limits_issued

/-- Removing a cancelled order keeps the invariant. -/
theorem cancel (h : s.WellFormed) {id : String} (hopen : id ∈ s.api.openOrders) :
    ({ s with
        api := { s.api with openOrders := s.api.openOrders.erase id }
        cancelled := s.cancelled ++ [id] } : Session).WellFormed := by
  have hmem {other : String} (hother : other ∈ s.api.openOrders.erase id) :
      other ≠ id ∧ other ∈ s.api.openOrders := Finmap.mem_erase.mp hother
  have herase {other : String} {r : OrderRequest}
      (hother : (s.api.openOrders.erase id).lookup other = some r) :
      s.api.openOrders.lookup other = some r := by
    rwa [Finmap.lookup_erase_ne (hmem (Finmap.mem_of_lookup_eq_some hother)).1] at hother
  constructor
  case next_pos => exact h.next_pos
  case issued => exact h.issued
  case open_request => exact fun other r hother => h.open_request other r (herase hother)
  case closed_request => exact h.closed_request
  case cancelled_issued =>
    intro other hother
    rcases List.mem_append.mp hother with hother | hother
    · exact h.cancelled_issued other hother
    · rw [List.mem_singleton.mp hother]
      exact h.open_issued hopen
  case accounted =>
    intro other hother
    by_cases heq : other = id
    · exact .inr (.inr (by simp [heq]))
    · rcases h.accounted other hother with hin | hin | hin
      · exact .inl (Finmap.mem_erase.mpr ⟨heq, hin⟩)
      · exact .inr (.inl hin)
      · exact .inr (.inr (List.mem_append_left _ hin))
  case open_not_closed => exact fun other hother => h.open_not_closed other (hmem hother).2
  case open_not_cancelled =>
    intro other hother hcancelled
    rw [List.mem_append, List.mem_singleton] at hcancelled
    exact hcancelled.elim (h.open_not_cancelled other (hmem hother).2) (hmem hother).1
  case closed_not_cancelled =>
    intro other hclosed hcancelled
    rw [List.mem_append, List.mem_singleton] at hcancelled
    rcases hcancelled with hcancelled | rfl
    · exact h.closed_not_cancelled other hclosed hcancelled
    · exact h.open_not_closed other hopen hclosed
  case closed_nodup => exact h.closed_nodup
  case listed => exact fun other r hother => h.listed other r (herase hother)
  case list_nodup => exact h.list_nodup
  case list_request => exact h.list_request
  case limits_issued => exact h.limits_issued

/-- A walk over listed ids keeps the invariant. -/
theorem walk (h : s.WellFormed) (feed : Feed) (ids : List String) :
    ({ s with api := (PaperTradeApi.walk feed ids s.api).api } : Session).WellFormed := by
  apply PaperTradeApi.walk_preserves (P := fun api => ({ s with api } : Session).WellFormed)
  · intro id _ api request result api' hapi hlookup hcase
    exact hapi.evaluated hlookup hcase
  · exact h

/-- A trade update keeps the invariant, whether it returns or throws. -/
theorem tradeUpdate (h : s.WellFormed) (feed : Feed) (pair : TradablePair) :
    ({ s with api := (PaperTradeApi.tradeUpdateHandler feed pair s.api).2 } : Session).WellFormed := by
  have hwalk := h.walk feed (s.api.orderIds pair)
  have hsame : (PaperTradeApi.walk feed (s.api.orderIds pair) s.api).api.orderIds pair =
      s.api.orderIds pair := PaperTradeApi.walk_orderIds _ pair s.api
  rw [PaperTradeApi.tradeUpdateHandler_eq]
  apply hwalk.setOrderIds
  · rw [hsame]
    exact PaperTradeApi.walk_left_sublist _ _
  · intro id hid hopen
    exact PaperTradeApi.mem_walk_left (hsame ▸ hid) hopen

/-- Trade updates keep the invariant, up to the one that throws. -/
theorem handleUpdates (h : s.WellFormed) (feed : Feed) (pairs : List TradablePair) :
    ({ s with api := (PaperTradeApi.handleUpdates feed pairs s.api).2 } : Session).WellFormed := by
  induction pairs generalizing s with
  | nil => exact h
  | cons pair rest ih =>
    have hfirst := h.tradeUpdate feed pair
    rw [PaperTradeApi.handleUpdates]
    rcases hupdate : PaperTradeApi.tradeUpdateHandler feed pair s.api with ⟨fault | value, api⟩
    · rwa [hupdate] at hfirst
    · rw [hupdate] at hfirst
      exact ih hfirst

/-- A call that registers an order is its registration and its first evaluation. -/
theorem step_add (h : s.WellFormed) (feed : Feed) {call : Call} {request : OrderRequest}
    (hcall : call.request? = some request) :
    ∃ result api',
      PaperTradeApi.tryFillOrder feed s.api.nextOrderId (s.api.register request) = (result, api') ∧
      PaperTradeApi.Evaluated feed s.api.nextOrderId request (s.api.register request) result api' ∧
      s.step (feed, call) = { s with
        api := api'
        requests := s.requests.insert s.api.nextOrderId request } := by
  obtain ⟨result, api', heq, hcase⟩ :=
    PaperTradeApi.tryFillOrder_evaluated feed (h.register_lookup request)
  refine ⟨result, api', heq, hcase, ?_⟩
  have hapi : (s.api.perform feed call).2 = api' := by
    rw [PaperTradeApi.perform_snd_of_request hcall, heq]
  cases call with
  | addOrder _ | addOrderConfirm _ => cases hcall; simp [Session.step, hapi, Call.request?]
  | cancelOrder | tradeUpdate => cases hcall

/-- Every call keeps the invariant. -/
theorem step (h : s.WellFormed) (input : Feed × Call) : (s.step input).WellFormed := by
  obtain ⟨feed, call⟩ := input
  have hadd {request : OrderRequest} (hcall : call.request? = some request) :
      (s.step (feed, call)).WellFormed := by
    obtain ⟨result, api', _, hcase, hstep⟩ := h.step_add feed hcall
    rw [hstep]
    exact (h.register request).evaluated (h.register_lookup request) hcase
  cases call with
  | addOrder request => exact hadd rfl
  | addOrderConfirm request => exact hadd rfl
  | cancelOrder orderId =>
    rw [step_cancelOrder]
    split
    · next hopen => exact h.cancel hopen
    · exact h
  | tradeUpdate pair => exact h.tradeUpdate feed pair

/-- A property of sessions that the four moves keep is kept by every call. The moves are only
asked about well-formed sessions, and the evaluations of open orders only about those of the call. -/
theorem step_induction_of_evaluations {P : Session → Prop} (h : s.WellFormed) (hP : P s)
    (input : Feed × Call)
    (register : ∀ s : Session, s.WellFormed → P s → ∀ request, P { s with
      api := s.api.register request
      requests := s.requests.insert s.api.nextOrderId request })
    (evaluated : ∀ e ∈ s.api.callEvaluations input.1 input.2, ∀ s : Session, s.WellFormed → P s →
      s.api = e.api → s.api.openOrders.lookup e.id = some e.request → ∀ result api',
        PaperTradeApi.Evaluated e.feed e.id e.request s.api result api' → P { s with api := api' })
    (relisted : ∀ s : Session, P s → ∀ pair ids, P { s with api := s.api.setOrderIds pair ids })
    (cancelled : ∀ s : Session, s.WellFormed → P s → ∀ id, id ∈ s.api.openOrders → P { s with
      api := { s.api with openOrders := s.api.openOrders.erase id }
      cancelled := s.cancelled ++ [id] }) : P (s.step input) := by
  obtain ⟨feed, call⟩ := input
  have hadd {request : OrderRequest} (hcall : call.request? = some request)
      (hmem : { feed, api := s.api.register request, id := s.api.nextOrderId, request } ∈
        s.api.callEvaluations feed call) : P (s.step (feed, call)) := by
    obtain ⟨result, api', _, hcase, hstep⟩ := h.step_add feed hcall
    rw [hstep]
    exact evaluated _ hmem _ (h.register request) (register s h hP request) rfl
      (h.register_lookup request) _ _ hcase
  cases call with
  | addOrder request | addOrderConfirm request => exact hadd rfl (List.mem_singleton_self _)
  | cancelOrder orderId =>
    rw [step_cancelOrder]
    split
    · next hopen => exact cancelled s h hP orderId hopen
    · exact hP
  | tradeUpdate pair =>
    have hwalk : ({ s with api :=
        (PaperTradeApi.walk feed (s.api.orderIds pair) s.api).api } : Session).WellFormed ∧
        P { s with api := (PaperTradeApi.walk feed (s.api.orderIds pair) s.api).api } := by
      apply PaperTradeApi.walk_preserves_of_evaluations
        (P := fun api => ({ s with api } : Session).WellFormed ∧ P { s with api })
      · intro e he hapi hlookup result api' hcase
        exact ⟨hapi.1.evaluated hlookup hcase,
          evaluated e he _ hapi.1 hapi.2 rfl hlookup result api' hcase⟩
      · exact ⟨h, hP⟩
    have hstep : s.step (feed, .tradeUpdate pair) = { s with
        api := (PaperTradeApi.walk feed (s.api.orderIds pair) s.api).api.setOrderIds pair
          (PaperTradeApi.walk feed (s.api.orderIds pair) s.api).left } := by
      simp only [Session.step, PaperTradeApi.perform, PaperTradeApi.tradeUpdateHandler_eq]
      rfl
    rw [hstep]
    exact relisted _ hwalk.2 pair _

/-- A property of sessions that the four moves keep is kept by every call. The moves are only
asked about well-formed sessions. -/
theorem step_induction {P : Session → Prop} (h : s.WellFormed) (hP : P s)
    (register : ∀ s : Session, s.WellFormed → P s → ∀ request, P { s with
      api := s.api.register request
      requests := s.requests.insert s.api.nextOrderId request })
    (evaluated : ∀ s : Session, s.WellFormed → P s → ∀ feed id request result api',
      s.api.openOrders.lookup id = some request →
        PaperTradeApi.Evaluated feed id request s.api result api' → P { s with api := api' })
    (relisted : ∀ s : Session, P s → ∀ pair ids, P { s with api := s.api.setOrderIds pair ids })
    (cancelled : ∀ s : Session, s.WellFormed → P s → ∀ id, id ∈ s.api.openOrders → P { s with
      api := { s.api with openOrders := s.api.openOrders.erase id }
      cancelled := s.cancelled ++ [id] })
    (input : Feed × Call) : P (s.step input) :=
  h.step_induction_of_evaluations hP input register
    (fun e _ s hs hPs _ hlookup result api' hcase =>
      evaluated s hs hPs e.feed e.id e.request result api' hlookup hcase) relisted cancelled

/-- Every reachable session is well formed. -/
theorem run (config : PaperTradingConfig) (inputs : List (Feed × Call)) :
    (Session.run config inputs).WellFormed :=
  foldl_invariant (fun _ input h => h.step input) inputs (WellFormed.start config)

end WellFormed

end Session

end MarketBlocks
