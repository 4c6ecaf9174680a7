import MarketBlocks.PaperTrading.Session

/-!
# Blocked orders

`trade_update_handler` lets the exception of a fill end its loop, so an order that cannot be
paid for keeps the orders listed behind it from being evaluated. The reference here is an
update that passes such an order over: every order meets the account that the affordable
fills before it have left. The walk agrees with the reference up to its first exception.
-/

namespace MarketBlocks

open Library

namespace PaperTradeApi

/-- The part of an update that concerns one order, when an order that cannot be paid for is
passed over: the order fills if it triggers and is covered. -/
def settle (feed : Feed) (api : PaperTradeApi) (id : String) : PaperTradeApi :=
  match api.openOrders.lookup id with
  | none => api
  | some request =>
    match api.trigger feed id request with
    | none => api
    | some fillPrice =>
      if api.covers request fillPrice then api.filled feed id request fillPrice else api

/-- The account that an order of the list meets, after the affordable fills before it. -/
def turn (feed : Feed) (ids : List String) (id : String) (api : PaperTradeApi) : PaperTradeApi :=
  (ids.takeWhile (· ≠ id)).foldl (settle feed) api

/-- An open order whose trigger holds, and whether its sold amount is covered at its turn. -/
def Due (feed : Feed) (ids : List String) (api : PaperTradeApi) (id : String) (covered : Bool) :
    Prop :=
  ∃ request fillPrice, api.openOrders.lookup id = some request ∧
    api.trigger feed id request = some fillPrice ∧
      (turn feed ids id api).covers request fillPrice = covered

/-- Some triggered order that is not covered stands before one that is. -/
def Blocked (feed : Feed) (ids : List String) (api : PaperTradeApi) : Prop :=
  ∃ blocker id, blocker ∈ ids.takeWhile (· ≠ id) ∧ id ∈ ids ∧ Due feed ids api blocker false ∧
    Due feed ids api id true

variable {feed : Feed}

/-- Two accounts with the same funds and orders, whose limits agree for the given ids. -/
structure Agree (ids : List String) (api api' : PaperTradeApi) : Prop where
  fee : api'.fee = api.fee
  balances : api'.balances = api.balances
  openOrders : api'.openOrders = api.openOrders
  closedOrders : api'.closedOrders = api.closedOrders
  limits : ∀ id ∈ ids, api'.trailingOrderLimits.lookup id = api.trailingOrderLimits.lookup id

/-- What one settled order does not change about the others. -/
theorem settle_view_of_ne (feed : Feed) {id other : String} (hne : other ≠ id) (api : PaperTradeApi) :
    (settle feed api id).view other = api.view other := by
  unfold settle
  split
  · rfl
  · split
    · rfl
    · split
      · exact filled_view_of_ne hne _
      · rfl

/-- Behind the head of the list, an order is due exactly when it is due after the head. -/
theorem due_cons {head id : String} {rest : List String} (hne : id ≠ head) (api : PaperTradeApi)
    (covered : Bool) :
    Due feed (head :: rest) api id covered ↔ Due feed rest (settle feed api head) id covered := by
  have hview := settle_view_of_ne feed hne api
  have hopen : (settle feed api head).openOrders.lookup id = api.openOrders.lookup id :=
    congrArg OrderView.opened hview
  have hturn : turn feed (head :: rest) id api = turn feed rest id (settle feed api head) := by
    simp [turn, hne.symm]
  simp only [Due, hopen, trigger_congr hview, hturn]

/-- An update is blocked at the head of its list or behind it. -/
theorem blocked_cons {head : String} {rest : List String} (hhead : head ∉ rest)
    (api : PaperTradeApi) :
    Blocked feed (head :: rest) api ↔
      (Due feed (head :: rest) api head false ∧
        ∃ id ∈ rest, Due feed rest (settle feed api head) id true) ∨
      Blocked feed rest (settle feed api head) := by
  have hne {id : String} (hid : id ∈ rest) : id ≠ head := fun h => hhead (h ▸ hid)
  have htake {id : String} (hid : id ∈ rest) :
      (head :: rest).takeWhile (· ≠ id) = head :: rest.takeWhile (· ≠ id) := by
    simp [(hne hid).symm]
  constructor
  · rintro ⟨blocker, id, hbefore, hmem, hblocker, hdue⟩
    rcases List.mem_cons.mp hmem with rfl | hid
    · simp at hbefore
    · rw [htake hid] at hbefore
      rw [due_cons (hne hid)] at hdue
      rcases List.mem_cons.mp hbefore with rfl | hbehind
      · exact .inl ⟨hblocker, id, hid, hdue⟩
      · rw [due_cons (hne ((List.takeWhile_sublist _).subset hbehind))] at hblocker
        exact .inr ⟨blocker, id, hbehind, hid, hblocker, hdue⟩
  · rintro (⟨hblocker, id, hid, hdue⟩ | ⟨blocker, id, hbefore, hid, hblocker, hdue⟩)
    · refine ⟨head, id, htake hid ▸ List.mem_cons_self, List.mem_cons_of_mem _ hid, hblocker, ?_⟩
      rwa [due_cons (hne hid)]
    · refine ⟨blocker, id, htake hid ▸ List.mem_cons_of_mem _ hbefore, List.mem_cons_of_mem _ hid,
        ?_, ?_⟩
      · rwa [due_cons (hne ((List.takeWhile_sublist _).subset hbefore))]
      · rwa [due_cons (hne hid)]

section Walk

variable {w w' f : PaperTradeApi} {id : String} {rest : List String} {request : OrderRequest}

/-- At the head of the list, the walk and the reference see the same trigger. -/
theorem Agree.trigger_eq (hagree : Agree (id :: rest) w f) :
    f.trigger feed id request = w.trigger feed id request := by
  rw [trigger, trigger, hagree.limits id List.mem_cons_self]

/-- The walk and the reference see the same funds. -/
theorem Agree.covers_eq {ids : List String} (hagree : Agree ids w f) (fillPrice : ℚ) :
    f.covers request fillPrice = w.covers request fillPrice := by
  rw [covers, covers, hasSufficientFunds, hasSufficientFunds, hagree.fee, hagree.balances]

/-- What is due at the head of the list is read off the walk. -/
theorem Agree.due_head (hagree : Agree (id :: rest) w f)
    (hlookup : w.openOrders.lookup id = some request) (covered : Bool) :
    Due feed (id :: rest) f id covered ↔
      ∃ fillPrice, w.trigger feed id request = some fillPrice ∧
        w.covers request fillPrice = covered := by
  simp [Due, turn, hagree.openOrders, hlookup, hagree.trigger_eq, hagree.covers_eq]

/-- A listed id that is not open is not due, and both the walk and the reference pass it over. -/
theorem Agree.stale (feed : Feed) (hagree : Agree (id :: rest) w f) (hstale : id ∉ w.openOrders) :
    (∀ covered, ¬ Due feed (id :: rest) f id covered) ∧ PaperTradeApi.settle feed f id = f ∧
      Agree rest w f := by
  have hnone : f.openOrders.lookup id = none := by
    rw [hagree.openOrders, Finmap.lookup_eq_none.mpr hstale]
  refine ⟨?_, by simp [PaperTradeApi.settle, hnone], hagree.fee, hagree.balances, hagree.openOrders,
    hagree.closedOrders, fun other hother => hagree.limits other (List.mem_cons_of_mem _ hother)⟩
  rintro covered ⟨request, _, hlookup, _⟩
  rw [hnone] at hlookup
  cases hlookup

/-- An order that ends the walk is due and not covered. -/
theorem Agree.due_of_throws {fault : Fault} (hagree : Agree (id :: rest) w f)
    (hlookup : w.openOrders.lookup id = some request)
    (hcase : Evaluated feed id request w (.error fault) w') :
    Due feed (id :: rest) f id false ∧ ¬ Due feed (id :: rest) f id true ∧
      w'.openOrders = w.openOrders := by
  rw [hagree.due_head hlookup, hagree.due_head hlookup]
  cases hcase with
  | unpaid fillPrice htrigger hcovers =>
    exact ⟨⟨fillPrice, htrigger, hcovers⟩, by simp [htrigger, hcovers], rfl⟩

/-- An order that the walk goes on from is not due without being covered, and closes when it is
due. -/
theorem Agree.due_of_goes_on {filled : Bool} (hagree : Agree (id :: rest) w f)
    (hlookup : w.openOrders.lookup id = some request)
    (hcase : Evaluated feed id request w (.ok filled) w') :
    ¬ Due feed (id :: rest) f id false ∧
      (Due feed (id :: rest) f id true → id ∈ w'.closedIds) := by
  rw [hagree.due_head hlookup, hagree.due_head hlookup]
  cases hcase with
  | noPrice hprice => simp [trigger, hprice]
  | waiting hprice hnone => simp [hnone]
  | filled fillPrice hsome hfunds =>
    simp [hsome, hfunds, closedIds, PaperTradeApi.filled, toOrderDescription]

/-- As long as the walk goes on, it stays in agreement with the reference. -/
theorem Agree.settle {filled : Bool} (hagree : Agree (id :: rest) w f) (hid : id ∉ rest)
    (hlookup : w.openOrders.lookup id = some request)
    (hcase : Evaluated feed id request w (.ok filled) w') :
    Agree rest w' (settle feed f id) := by
  have hopen : f.openOrders.lookup id = some request := by rw [hagree.openOrders, hlookup]
  have hlimits : ∀ other ∈ rest, (PaperTradeApi.settle feed f id).trailingOrderLimits.lookup other =
      w'.trailingOrderLimits.lookup other := by
    intro other hother
    have hne : other ≠ id := fun h => hid (h ▸ hother)
    have hf := congrArg OrderView.limit (settle_view_of_ne feed hne f)
    have hw := congrArg OrderView.limit (hcase.view_of_ne hne)
    exact hf.trans ((hagree.limits other (List.mem_cons_of_mem _ hother)).trans hw.symm)
  cases hcase with
  | noPrice hprice =>
    have hsettle : PaperTradeApi.settle feed f id = f := by
      simp [PaperTradeApi.settle, hopen, trigger, hprice]
    rw [hsettle] at hlimits ⊢
    exact ⟨hagree.fee, hagree.balances, hagree.openOrders, hagree.closedOrders, hlimits⟩
  | waiting hprice hnone =>
    have hsettle : PaperTradeApi.settle feed f id = f := by
      simp [PaperTradeApi.settle, hopen, hagree.trigger_eq, hnone]
    rw [hsettle] at hlimits ⊢
    exact ⟨hagree.fee, hagree.balances, hagree.openOrders, hagree.closedOrders, hlimits⟩
  | filled fillPrice hsome hfunds =>
    have hsettle : PaperTradeApi.settle feed f id = f.filled feed id request fillPrice := by
      simp [PaperTradeApi.settle, hopen, hagree.trigger_eq, hsome, hagree.covers_eq, hfunds]
    rw [hsettle] at hlimits ⊢
    constructor
    case fee => exact hagree.fee
    case balances => simp only [PaperTradeApi.filled, hagree.fee, hagree.balances]
    case openOrders => simp only [PaperTradeApi.filled, hagree.openOrders]
    case closedOrders => simp only [PaperTradeApi.filled, hagree.closedOrders]
    case limits => exact hlimits

/-- Closed orders stay closed. -/
theorem Evaluated.closedIds_subset {result : Except Fault Bool} {other : String}
    (hcase : Evaluated feed id request w result w') (hmem : other ∈ w.closedIds) :
    other ∈ w'.closedIds := by
  cases hcase with
  | noPrice | waiting | unpaid => exact hmem
  | filled fillPrice =>
    rw [closedIds, PaperTradeApi.filled, List.map_append]
    exact List.mem_append_left _ hmem

/-- Closed orders stay closed along a walk. -/
theorem walk_closedIds_subset {ids : List String} {other : String} (hmem : other ∈ w.closedIds) :
    other ∈ (walk feed ids w).api.closedIds := by
  apply walk_preserves (P := fun api => other ∈ api.closedIds)
  · intro id _ api request result api' hP _ hcase
    exact hcase.closedIds_subset hP
  · exact hmem

/-- An evaluation keeps the open orders apart from the closed ones. -/
theorem Evaluated.open_not_closed {result : Except Fault Bool}
    (hcase : Evaluated feed id request w result w')
    (hapart : ∀ other ∈ w.openOrders, other ∉ w.closedIds) :
    ∀ other ∈ w'.openOrders, other ∉ w'.closedIds := by
  cases hcase with
  | noPrice | waiting | unpaid => exact hapart
  | filled fillPrice =>
    intro other hother
    obtain ⟨hne, hopen⟩ := Finmap.mem_erase.mp hother
    have hold : other ∉ w.closedOrders.map (·.orderId) := hapart other hopen
    simp only [closedIds, PaperTradeApi.filled, List.map_append, List.mem_append, not_or]
    exact ⟨hold, by simpa [toOrderDescription] using hne⟩

end Walk

/-- When the head ends the walk nothing behind it closes, so every order behind it that is due and
covered is blocked. -/
private theorem closes_due_iff_of_throws {head : String} {rest : List String} {w w' f : PaperTradeApi}
    {request : OrderRequest} {fault : Fault}
    (hagree : Agree (head :: rest) w f) (hapart : ∀ id ∈ w.openOrders, id ∉ w.closedIds)
    (hlookup : w.openOrders.lookup head = some request)
    (hcase : Evaluated feed head request w (.error fault) w') :
    (∀ id ∈ head :: rest, Due feed (head :: rest) f id true → id ∈ w'.closedIds) ↔
      ¬ Blocked feed (head :: rest) f := by
  have hapart' := hcase.open_not_closed hapart
  obtain ⟨hblocks, hnotDue, hsame⟩ := hagree.due_of_throws hlookup hcase
  have hstays {id : String} (hdue : Due feed (head :: rest) f id true) : id ∉ w'.closedIds := by
    obtain ⟨_, _, hfound, _⟩ := hdue
    rw [hagree.openOrders] at hfound
    exact hapart' id (hsame ▸ Finmap.mem_of_lookup_eq_some hfound)
  have hother {id : String} (hdue : Due feed (head :: rest) f id true) : id ≠ head :=
    fun heq => hnotDue (heq ▸ hdue)
  constructor
  · rintro hclosed ⟨_, id, _, hid, _, hdue⟩
    exact hstays hdue (hclosed id hid hdue)
  · intro hfree id hid hdue
    have hbefore : head ∈ (head :: rest).takeWhile (· ≠ id) := by
      simp [(hother hdue).symm]
    exact absurd ⟨head, id, hbefore, hid, hblocks, hdue⟩ hfree

/-- A head that does not block is out of the way once it is settled. -/
private theorem closes_due_iff_of_goes_on {head : String} {rest closed : List String} {f : PaperTradeApi}
    (hhead : head ∉ rest) (hfree : ¬ Due feed (head :: rest) f head false)
    (hpaid : Due feed (head :: rest) f head true → head ∈ closed)
    (hrest : (∀ id ∈ rest, Due feed rest (settle feed f head) id true → id ∈ closed) ↔
      ¬ Blocked feed rest (settle feed f head)) :
    (∀ id ∈ head :: rest, Due feed (head :: rest) f id true → id ∈ closed) ↔
      ¬ Blocked feed (head :: rest) f := by
  have hdue : (∀ id ∈ rest, Due feed (head :: rest) f id true → id ∈ closed) ↔
      ∀ id ∈ rest, Due feed rest (settle feed f head) id true → id ∈ closed := by
    refine forall₂_congr fun id hid => ?_
    rw [due_cons fun h : id = head => hhead (h ▸ hid)]
  rw [List.forall_mem_cons, and_iff_right hpaid, hdue, hrest, blocked_cons hhead]
  simp [hfree]

/-- The walk closes every order that is due and covered exactly when none of them is blocked. -/
theorem walk_closes_due_iff {ids : List String} {w f : PaperTradeApi} (hnodup : ids.Nodup)
    (hagree : Agree ids w f) (hapart : ∀ id ∈ w.openOrders, id ∉ w.closedIds) :
    (∀ id ∈ ids, Due feed ids f id true → id ∈ (walk feed ids w).api.closedIds) ↔
      ¬ Blocked feed ids f := by
  induction ids generalizing w f with
  | nil => simp [Blocked]
  | cons head rest ih =>
    obtain ⟨hhead, hrest⟩ := List.nodup_cons.mp hnodup
    by_cases hopen : head ∈ w.openOrders
    · obtain ⟨request, hlookup⟩ := Finmap.mem_iff.mp hopen
      obtain ⟨result, w', heq, hcase⟩ := tryFillOrder_evaluated feed hlookup
      rcases result with fault | paid
      · rw [walk_cons_throws hopen heq]
        exact closes_due_iff_of_throws hagree hapart hlookup hcase
      · obtain ⟨hfree, hpaid⟩ := hagree.due_of_goes_on hlookup hcase
        rw [(walk_cons_ok hopen heq).1]
        exact closes_due_iff_of_goes_on hhead hfree (fun h => walk_closedIds_subset (hpaid h))
          (ih hrest (hagree.settle hhead hlookup hcase) (hcase.open_not_closed hapart))
    · obtain ⟨hidle, hsettle, hagree'⟩ := hagree.stale feed hopen
      rw [walk_cons_stale hopen]
      exact closes_due_iff_of_goes_on hhead (hidle false) (fun h => absurd h (hidle true))
        (by rw [hsettle]; exact ih hrest hagree' hapart)

/-- The walk returns exactly when every order that triggers is covered at its turn. -/
theorem walk_ok_iff {ids : List String} {w f : PaperTradeApi} (hnodup : ids.Nodup)
    (hagree : Agree ids w f) :
    (walk feed ids w).result = .ok () ↔ ∀ id ∈ ids, ¬ Due feed ids f id false := by
  induction ids generalizing w f with
  | nil => simp [walk]
  | cons head rest ih =>
    obtain ⟨hhead, hrest⟩ := List.nodup_cons.mp hnodup
    have hbehind : (∀ id ∈ rest, ¬ Due feed (head :: rest) f id false) ↔
        ∀ id ∈ rest, ¬ Due feed rest (settle feed f head) id false := by
      refine forall₂_congr fun id hid => ?_
      rw [due_cons fun h : id = head => hhead (h ▸ hid)]
    rw [List.forall_mem_cons, hbehind]
    by_cases hopen : head ∈ w.openOrders
    · obtain ⟨request, hlookup⟩ := Finmap.mem_iff.mp hopen
      obtain ⟨result, w', heq, hcase⟩ := tryFillOrder_evaluated feed hlookup
      rcases result with fault | paid
      · have hblocks := (hagree.due_of_throws hlookup hcase).1
        rw [walk_cons_throws hopen heq]
        simp [hblocks]
      · have hfree := (hagree.due_of_goes_on hlookup hcase).1
        rw [(walk_cons_ok hopen heq).2, ih hrest (hagree.settle hhead hlookup hcase),
          and_iff_right hfree]
    · obtain ⟨hidle, hsettle, hagree'⟩ := hagree.stale feed hopen
      rw [walk_cons_stale hopen, hsettle, ih hrest hagree', and_iff_right (hidle false)]

end PaperTradeApi

namespace Session

open PaperTradeApi

/-- In every reachable session, a trade update closes every order of its pair that triggers and
is covered at its turn exactly when no order that is not covered stands before such an order. -/
theorem tradeUpdate_closes_due_iff (config : PaperTradingConfig) (inputs : List (Feed × Call))
    (feed : Feed) (pair : TradablePair) :
    let api := (Session.run config inputs).api
    (∀ id request fillPrice, api.openOrders.lookup id = some request → request.pair = pair →
        api.trigger feed id request = some fillPrice →
          (turn feed (api.orderIds pair) id api).covers request fillPrice = true →
            id ∈ (tradeUpdateHandler feed pair api).2.closedIds) ↔
      ¬ Blocked feed (api.orderIds pair) api := by
  intro api
  have hwell := WellFormed.run config inputs
  have hagree : Agree (api.orderIds pair) api api := ⟨rfl, rfl, rfl, rfl, fun _ _ => rfl⟩
  rw [← walk_closes_due_iff (hwell.list_nodup pair) hagree hwell.open_not_closed,
    tradeUpdateHandler_eq]
  constructor
  · rintro hall id hid ⟨request, fillPrice, hlookup, htrigger, hcovers⟩
    exact hall id request fillPrice hlookup (hwell.pair_of_listed hlookup hid) htrigger hcovers
  · intro hall id request fillPrice hlookup hpair htrigger hcovers
    exact hall id (hpair ▸ hwell.listed id request hlookup)
      ⟨request, fillPrice, hlookup, htrigger, hcovers⟩

/-- Two limit orders wait at 10 and the account of 100 covers the second one only. When the
price falls to 9 the first one ends the update and the second one stays open. -/
theorem tradeUpdate_blocked_by_unaffordable :
    let pair : TradablePair := ⟨"BTC", "GBP"⟩
    let inputs := [(Feed.quote 20, Call.addOrder (createLimitOrder pair .buy 10 20)),
      (Feed.quote 20, Call.addOrder (createLimitOrder pair .buy 10 5))]
    let api := (Session.run ⟨0, [("GBP", 100)]⟩ inputs).api
    ¬ ∀ id request fillPrice, api.openOrders.lookup id = some request → request.pair = pair →
        api.trigger (Feed.quote 9) id request = some fillPrice →
          (turn (Feed.quote 9) (api.orderIds pair) id api).covers request fillPrice = true →
            id ∈ (tradeUpdateHandler (Feed.quote 9) pair api).2.closedIds := by
  intro pair inputs api hall
  have hclosed := hall "2" (createLimitOrder pair .buy 10 5) 10 (by decide +kernel) rfl
    (by decide +kernel) (by decide +kernel)
  revert hclosed
  decide +kernel

end Session

end MarketBlocks
