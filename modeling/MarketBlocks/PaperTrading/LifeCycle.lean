import MarketBlocks.PaperTrading.Session

/-!
# The life cycle of an order

An issued id is open, closed or cancelled and never two of these at once. Stale ids wait in
the id lists until a trade update of their pair removes them; an open id is listed once,
under its own pair. A trade update that returns has evaluated every order that was open at
its start once, and has brought the list of its pair down to the orders still open.
-/

namespace MarketBlocks

open Library

/-- Where an order can be. -/
inductive Place where
  | «open»
  | closed
  | cancelled
  deriving DecidableEq, Repr

namespace Session

/-- The ids found in a place. -/
def Holds (s : Session) (id : String) : Place → Prop
  | .open => id ∈ s.api.openOrders
  | .closed => id ∈ s.api.closedIds
  | .cancelled => id ∈ s.cancelled

namespace WellFormed

variable {s : Session}

/-- An issued id is in exactly one place. -/
theorem holds_unique (h : s.WellFormed) {id : String} (hid : id ∈ s.requests) :
    ∃! place, s.Holds id place := by
  rcases h.accounted id hid with hopen | hclosed | hcancelled
  · refine ⟨.open, hopen, ?_⟩
    intro place hplace
    cases place with
    | «open» => rfl
    | closed => exact absurd hplace (h.open_not_closed id hopen)
    | cancelled => exact absurd hplace (h.open_not_cancelled id hopen)
  · refine ⟨.closed, hclosed, ?_⟩
    intro place hplace
    cases place with
    | «open» => exact absurd hclosed (h.open_not_closed id hplace)
    | closed => rfl
    | cancelled => exact absurd hplace (h.closed_not_cancelled id hclosed)
  · refine ⟨.cancelled, hcancelled, ?_⟩
    intro place hplace
    cases place with
    | «open» => exact absurd hcancelled (h.open_not_cancelled id hplace)
    | closed => exact absurd hcancelled (h.closed_not_cancelled id hplace)
    | cancelled => rfl

/-- An open order is listed once under its own pair and nowhere else. -/
theorem count_orderIds (h : s.WellFormed) {id : String} {request : OrderRequest}
    (hlookup : s.api.openOrders.lookup id = some request) (pair : TradablePair) :
    (s.api.orderIds pair).count id = if pair = request.pair then 1 else 0 := by
  split
  · next hpair =>
    subst hpair
    exact List.count_eq_one_of_mem (h.list_nodup _) (h.listed id request hlookup)
  · next hpair =>
    refine List.count_eq_zero.mpr fun hlisted => hpair ?_
    exact (h.pair_of_listed hlookup hlisted).symm

/-- A trade update that returns evaluates the open orders of its pair in the order of their
list, and keeps those that are still open. -/
theorem tradeUpdateTrace_of_ok (h : s.WellFormed) {feed : Feed} {pair : TradablePair}
    (hok : (s.api.tradeUpdateHandler feed pair).1 = .ok ()) :
    (s.api.tradeUpdateTrace feed pair).2.1 =
        (s.api.orderIds pair).filter (· ∈ s.api.openOrders) ∧
      (s.api.tradeUpdateHandler feed pair).2.orderIds pair =
        (s.api.orderIds pair).filter (· ∈ (s.api.tradeUpdateHandler feed pair).2.openOrders) := by
  rw [PaperTradeApi.tradeUpdateHandler_eq] at hok ⊢
  rw [PaperTradeApi.tradeUpdateTrace_eq]
  obtain ⟨hevaluated, hleft⟩ := PaperTradeApi.walk_of_ok (h.list_nodup pair) hok
  refine ⟨hevaluated, ?_⟩
  rw [PaperTradeApi.orderIds_setOrderIds_self]
  exact hleft

end WellFormed

/-- In every reachable session: the ids `1, …, n - 1` are the issued ones and each is in exactly
one place; no id is closed twice; an open id is listed once, under its own pair; and a trade
update that returns evaluates each open order of its pair once and leaves the list with the
orders still open, in their old order. -/
theorem run_lifeCycle (config : PaperTradingConfig) (inputs : List (Feed × Call)) :
    let s := Session.run config inputs
    (∀ id, id ∈ s.requests ↔ ∃ n, 1 ≤ n ∧ n < s.api.nextOrderNumber ∧ id = n.repr) ∧
    (∀ id ∈ s.requests, ∃! place, s.Holds id place) ∧
    (s.api.closedOrders.map (·.orderId)).Nodup ∧
    (∀ id request, s.api.openOrders.lookup id = some request → ∀ pair,
      (s.api.orderIds pair).count id = if pair = request.pair then 1 else 0) ∧
    (∀ feed pair, (s.api.tradeUpdateHandler feed pair).1 = .ok () →
      (∀ id request, s.api.openOrders.lookup id = some request → request.pair = pair →
        (s.api.tradeUpdateTrace feed pair).2.1.count id = 1) ∧
      (s.api.tradeUpdateHandler feed pair).2.orderIds pair =
        (s.api.orderIds pair).filter (· ∈ (s.api.tradeUpdateHandler feed pair).2.openOrders)) := by
  intro s
  have h : s.WellFormed := WellFormed.run config inputs
  refine ⟨h.issued, fun id hid => h.holds_unique hid, h.closed_nodup,
    fun id request hlookup pair => h.count_orderIds hlookup pair, ?_⟩
  intro feed pair hok
  obtain ⟨hevaluated, hlist⟩ := h.tradeUpdateTrace_of_ok hok
  refine ⟨?_, hlist⟩
  intro id request hlookup hpair
  have hopen : id ∈ s.api.openOrders := Finmap.mem_of_lookup_eq_some hlookup
  rw [hevaluated, List.count_filter (by simpa using hopen), h.count_orderIds hlookup, if_pos hpair.symm]

end Session

end MarketBlocks
