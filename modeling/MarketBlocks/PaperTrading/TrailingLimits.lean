import MarketBlocks.PaperTrading.Blocking
import MarketBlocks.PaperTrading.Matching

/-!
# Trailing limits

The limit of a trailing order is meant to be the extreme of all prices the order was evaluated
at. `try_fill_order` drops it as soon as the order triggers, before it is known whether the fill
can be paid for, and a cancellation does not drop it at all. These two are the only ways in which
the stored limits part from the prices.
-/

namespace MarketBlocks

open Library

/-- The prices of the evaluations of every order, oldest first. -/
abbrev PriceHistory := String → List ℚ

/-- Some orders are evaluated at a price. Price zero stands for no trade. -/
def PriceHistory.record (prices : PriceHistory) (evaluated : List String) (price : ℚ) :
    PriceHistory :=
  fun id => if id ∈ evaluated ∧ price ≠ 0 then prices id ++ [price] else prices id

namespace PaperTradeApi

/-- What is claimed of the stored limits: an open trailing order that was evaluated has the extreme
of its prices, and limits are stored for open orders only. -/
structure LimitsSound (prices : PriceHistory) (api : PaperTradeApi) : Prop where
  extreme : ∀ id request, api.openOrders.lookup id = some request →
    request.orderType = .trailingStopLoss → prices id ≠ [] →
      api.trailingOrderLimits.lookup id = runningLimit request.action (prices id)
  limits_open : ∀ id ∈ api.trailingOrderLimits, id ∈ api.openOrders

/-- The limits are those of the prices, for every open order whatever its type. -/
structure Tracks (prices : PriceHistory) (api : PaperTradeApi) : Prop where
  stored : ∀ id request, api.openOrders.lookup id = some request →
    api.trailingOrderLimits.lookup id = storedLimit request (prices id)
  limits_open : ∀ id ∈ api.trailingOrderLimits, id ∈ api.openOrders

/-- The first order of the list that triggers and is not covered at its turn is a trailing one. -/
def TrailingFails (feed : Feed) (ids : List String) (api : PaperTradeApi) : Prop :=
  ∃ id ∈ ids, Due feed ids api id false ∧
    (∃ request, api.openOrders.lookup id = some request ∧
      request.orderType = .trailingStopLoss) ∧
    ∀ earlier ∈ ids.takeWhile (· ≠ id), ¬Due feed ids api earlier false

variable {feed : Feed} {prices : PriceHistory} {id : String} {request : OrderRequest}
  {api api' : PaperTradeApi} {ids : List String}

/-- A limit that tracks its prices is sound. -/
theorem Tracks.limitsSound (h : Tracks prices api) : LimitsSound prices api where
  extreme := by
    intro id request hopen htype _
    rw [h.stored id request hopen, storedLimit, if_pos htype]
  limits_open := h.limits_open

/-- The limits do not depend on the prices of orders that are not open. -/
theorem Tracks.congr {prices' : PriceHistory} (h : Tracks prices api)
    (hsame : ∀ id ∈ api.openOrders, prices' id = prices id) : Tracks prices' api where
  stored := by
    intro id request hopen
    rw [hsame id (Finmap.mem_of_lookup_eq_some hopen), h.stored id request hopen]
  limits_open := h.limits_open

/-! ## One evaluation -/

/-- A price is written down for an order that was evaluated. -/
theorem record_self (prices : PriceHistory) (id : String) {price : ℚ} (hprice : price ≠ 0) :
    prices.record [id] price id = prices id ++ [price] :=
  if_pos ⟨List.mem_singleton_self id, hprice⟩

/-- A price is written down for no order but the one that was evaluated. -/
theorem record_of_ne (prices : PriceHistory) {id other : String} (hne : other ≠ id) (price : ℚ) :
    prices.record [id] price other = prices other :=
  if_neg fun h => hne (List.mem_singleton.mp h.1)

/-- Dropping the limit of an order leaves none of it, as only trailing orders have one. -/
theorem Tracks.notMem_dropTrailing (h : Tracks prices api)
    (hopen : api.openOrders.lookup id = some request) :
    id ∉ dropTrailing id request api.trailingOrderLimits := by
  unfold dropTrailing
  split
  · simp [Finmap.mem_erase]
  · next htype =>
    rw [← Finmap.lookup_eq_none, h.stored id request hopen, storedLimit, if_neg htype]

/-- An evaluation that returns moves the limit of its order with the price. -/
theorem Tracks.evaluated {filled : Bool} (h : Tracks prices api)
    (hopen : api.openOrders.lookup id = some request)
    (hcase : Evaluated feed id request api (.ok filled) api') :
    Tracks (prices.record [id] (feed.price request.pair)) api' := by
  have hothers : ∀ other r, other ≠ id → api'.openOrders.lookup other = some r →
      api'.trailingOrderLimits.lookup other =
        storedLimit r (prices.record [id] (feed.price request.pair) other) := by
    intro other r hne hr
    have hview := hcase.view_of_ne hne
    have hlimit : api'.trailingOrderLimits.lookup other = api.trailingOrderLimits.lookup other :=
      congrArg OrderView.limit hview
    have hold : api.openOrders.lookup other = some r :=
      (congrArg OrderView.opened hview).symm.trans hr
    rw [record_of_ne prices hne, hlimit, h.stored other r hold]
  cases hcase with
  | noPrice hprice =>
    have hsame : prices.record [id] (feed.price request.pair) = prices := by
      funext other
      exact if_neg fun hrecord => hrecord.2 hprice
    rwa [hsame]
  | waiting hprice htrigger =>
    refine ⟨?_, ?_⟩
    · intro other r hr
      by_cases heq : other = id
      · subst heq
        have hsome : some request = some r := hopen.symm.trans hr
        cases hsome
        rw [record_self prices other hprice]
        simp only [noted, noteTrailing, storedLimit]
        split
        · next htype =>
          rw [Finmap.lookup_insert, runningLimit_concat, h.stored other request hopen, storedLimit,
            if_pos htype]
        · next htype => rw [h.stored other request hopen, storedLimit, if_neg htype]
      · exact hothers other r heq hr
    · intro other hmem
      rcases (Evaluated.waiting hprice htrigger).mem_limits hmem with heq | hold
      · rw [heq]
        exact Finmap.mem_of_lookup_eq_some hopen
      · exact h.limits_open other hold
  | filled fillPrice htrigger hcovers =>
    refine ⟨?_, ?_⟩
    · intro other r hr
      have hne : other ≠ id := by
        intro heq
        subst heq
        simp [PaperTradeApi.filled] at hr
      exact hothers other r hne hr
    · intro other hmem
      have hne : other ≠ id := by
        intro heq
        exact h.notMem_dropTrailing hopen (heq ▸ hmem)
      rcases (Evaluated.filled fillPrice htrigger hcovers).mem_limits hmem with heq | hold
      · exact absurd heq hne
      · exact Finmap.mem_erase.mpr ⟨hne, h.limits_open other hold⟩

/-- An evaluation that throws loses the limit of its order, if that is a trailing one. -/
theorem Tracks.throws {fault : Fault} (h : Tracks prices api)
    (hopen : api.openOrders.lookup id = some request)
    (hcase : Evaluated feed id request api (.error fault) api') :
    (request.orderType ≠ .trailingStopLoss →
        Tracks (prices.record [id] (feed.price request.pair)) api') ∧
      (request.orderType = .trailingStopLoss →
        ¬LimitsSound (prices.record [id] (feed.price request.pair)) api') := by
  cases hcase with
  | unpaid fillPrice htrigger hcovers =>
    have hprice : feed.price request.pair ≠ 0 := by
      intro hzero
      simp [trigger, hzero] at htrigger
    constructor
    · intro htype
      have hsame : api.unpaid id request = api := by
        simp only [PaperTradeApi.unpaid, dropTrailing, if_neg htype]
      rw [hsame]
      refine ⟨?_, h.limits_open⟩
      intro other r hr
      rw [h.stored other r hr]
      by_cases heq : other = id
      · subst heq
        have hsome : some request = some r := hopen.symm.trans hr
        cases hsome
        simp only [storedLimit, if_neg htype]
      · rw [record_of_ne prices heq]
    · intro htype hsound
      have hlimit := hsound.extreme id request hopen htype
        (by rw [record_self prices id hprice]; simp)
      have hgone : (api.unpaid id request).trailingOrderLimits.lookup id = none :=
        Finmap.lookup_eq_none.mpr (h.notMem_dropTrailing hopen)
      rw [hgone, record_self prices id hprice, runningLimit_concat] at hlimit
      cases hlimit

/-! ## A walk -/

/-- Only listed orders are evaluated. -/
theorem walk_evaluated_subset (feed : Feed) (ids : List String) (api : PaperTradeApi) :
    ∀ id ∈ (walk feed ids api).evaluated, id ∈ ids := by
  induction ids generalizing api with
  | nil => exact fun id hid => absurd hid List.not_mem_nil
  | cons head rest ih =>
    intro id hid
    by_cases hopen : head ∈ api.openOrders
    · rcases htry : tryFillOrder feed head api with ⟨fault | (_ | _), api'⟩
      · rw [walk_cons_throws hopen htry] at hid
        rw [List.mem_singleton.mp hid]
        exact List.mem_cons_self
      · rw [walk_cons_waiting hopen htry] at hid
        rcases List.mem_cons.mp hid with heq | hlater
        · exact heq ▸ List.mem_cons_self
        · exact List.mem_cons_of_mem _ (ih api' id hlater)
      · rw [walk_cons_filled hopen htry] at hid
        rcases List.mem_cons.mp hid with heq | hlater
        · exact heq ▸ List.mem_cons_self
        · exact List.mem_cons_of_mem _ (ih api' id hlater)
    · rw [walk_cons_stale hopen] at hid
      exact List.mem_cons_of_mem _ (ih api id hid)

/-- The evaluation of one order and then of others. -/
theorem record_cons (prices : PriceHistory) {id : String} {later : List String} (hid : id ∉ later)
    (price : ℚ) : prices.record (id :: later) price = (prices.record [id] price).record later price := by
  funext other
  simp only [PriceHistory.record, List.mem_cons, List.not_mem_nil, or_false]
  by_cases heq : other = id
  · subst heq
    simp [hid]
  · simp [heq]

/-- Behind an order that is not due without being covered, the update fails where it fails without
that order. -/
private theorem trailingFails_cons_of_not_due {head : String} {rest : List String} (hhead : head ∉ rest)
    (hfree : ¬Due feed (head :: rest) api head false) :
    TrailingFails feed (head :: rest) api ↔ TrailingFails feed rest (settle feed api head) := by
  have hopen : ∀ id ∈ rest, (settle feed api head).openOrders.lookup id =
      api.openOrders.lookup id := by
    intro id hid
    have hne : id ≠ head := fun heq => hhead (heq ▸ hid)
    exact congrArg OrderView.opened (settle_view_of_ne feed hne api)
  have hdue : ∀ id ∈ rest, (Due feed (head :: rest) api id false ↔
      Due feed rest (settle feed api head) id false) := by
    intro id hid
    have hne : id ≠ head := fun heq => hhead (heq ▸ hid)
    exact due_cons hne api false
  have htake : ∀ id ∈ rest, (head :: rest).takeWhile (· ≠ id) = head :: rest.takeWhile (· ≠ id) := by
    intro id hid
    have hne : head ≠ id := fun heq => hhead (heq ▸ hid)
    simp [hne]
  have hbefore : ∀ id, ∀ earlier ∈ rest.takeWhile (· ≠ id), earlier ∈ rest := fun id earlier hmem =>
    (List.takeWhile_sublist _).subset hmem
  constructor
  · intro h
    obtain ⟨id, hid, hdueid, hrequest, hearlier⟩ := h
    rcases List.mem_cons.mp hid with heq | hrest
    · exact absurd (heq ▸ hdueid) hfree
    · rw [htake id hrest] at hearlier
      refine ⟨id, hrest, (hdue id hrest).mp hdueid, by rwa [hopen id hrest], ?_⟩
      intro earlier hmem
      rw [← hdue earlier (hbefore id earlier hmem)]
      exact hearlier earlier (List.mem_cons_of_mem _ hmem)
  · intro h
    obtain ⟨id, hrest, hdueid, hrequest, hearlier⟩ := h
    rw [hopen id hrest] at hrequest
    refine ⟨id, List.mem_cons_of_mem _ hrest, (hdue id hrest).mpr hdueid, hrequest, ?_⟩
    rw [htake id hrest]
    intro earlier hmem
    rcases List.mem_cons.mp hmem with heq | hlater
    · exact heq ▸ hfree
    · rw [hdue earlier (hbefore id earlier hlater)]
      exact hearlier earlier hlater

/-- At an order that ends the update, the update fails exactly when the order is a trailing one. -/
private theorem trailingFails_cons_of_due {head : String} {rest : List String}
    (hopen : api.openOrders.lookup head = some request)
    (hdue : Due feed (head :: rest) api head false) :
    TrailingFails feed (head :: rest) api ↔ request.orderType = .trailingStopLoss := by
  constructor
  · intro h
    obtain ⟨id, -, -, ⟨other, hother, htype⟩, hearlier⟩ := h
    by_cases heq : id = head
    · rw [heq, hopen, Option.some.injEq] at hother
      rwa [hother]
    · exact absurd hdue (hearlier head (by simp [Ne.symm heq]))
  · intro htype
    refine ⟨head, List.mem_cons_self, hdue, ⟨request, hopen, htype⟩, ?_⟩
    simp

/-- A walk keeps the limits with the prices, unless a trailing order ends it: then that order has
lost its limit. -/
theorem Tracks.walk (feed : Feed) {pair : TradablePair} {f : PaperTradeApi} (hnodup : ids.Nodup)
    (hpairs : ∀ id ∈ ids, ∀ request, api.openOrders.lookup id = some request → request.pair = pair)
    (hagree : Agree ids api f) (h : Tracks prices api) :
    (¬TrailingFails feed ids f → Tracks
        (prices.record (PaperTradeApi.walk feed ids api).evaluated (feed.price pair))
        (PaperTradeApi.walk feed ids api).api) ∧
      (TrailingFails feed ids f → ¬LimitsSound
        (prices.record (PaperTradeApi.walk feed ids api).evaluated (feed.price pair))
        (PaperTradeApi.walk feed ids api).api) := by
  induction ids generalizing api f prices with
  | nil =>
    refine ⟨fun _ => ?_, fun hfails => ?_⟩
    · exact h.congr fun id _ => if_neg (by simp [PaperTradeApi.walk])
    · obtain ⟨id, hid, -⟩ := hfails
      exact absurd hid List.not_mem_nil
  | cons head rest ih =>
    obtain ⟨hhead, hrest⟩ := List.nodup_cons.mp hnodup
    by_cases hmem : head ∈ api.openOrders
    · obtain ⟨request, hopen⟩ := Finmap.mem_iff.mp hmem
      obtain ⟨result, api', heq, hcase⟩ := tryFillOrder_evaluated feed hopen
      have hpair := hpairs head List.mem_cons_self request hopen
      rcases result with fault | filled
      · obtain ⟨hdue, -, -⟩ := hagree.due_of_throws hopen hcase
        have hfopen : f.openOrders.lookup head = some request := by rw [hagree.openOrders, hopen]
        rw [trailingFails_cons_of_due hfopen hdue, walk_cons_throws hmem heq, ← hpair]
        exact h.throws hopen hcase
      · obtain ⟨hfree, -⟩ := hagree.due_of_goes_on hopen hcase
        have hevaluated : (PaperTradeApi.walk feed (head :: rest) api).evaluated =
            head :: (PaperTradeApi.walk feed rest api').evaluated := by
          cases filled with
          | true => rw [walk_cons_filled hmem heq]
          | false => rw [walk_cons_waiting hmem heq]
        have hnew : head ∉ (PaperTradeApi.walk feed rest api').evaluated := fun hlater =>
          hhead (walk_evaluated_subset feed rest api' head hlater)
        have hpairs' : ∀ id ∈ rest, ∀ r, api'.openOrders.lookup id = some r → r.pair = pair := by
          intro id hid r hr
          have hne : id ≠ head := fun heq => hhead (heq ▸ hid)
          rw [hcase.lookup_openOrders hne] at hr
          exact hpairs id (List.mem_cons_of_mem _ hid) r hr
        rw [trailingFails_cons_of_not_due hhead hfree, hevaluated, record_cons prices hnew,
          (walk_cons_ok hmem heq).1]
        subst hpair
        exact ih hrest hpairs' (hagree.settle hhead hopen hcase) (h.evaluated hopen hcase)
    · obtain ⟨hidle, hsettle, hagree'⟩ := hagree.stale feed hmem
      rw [trailingFails_cons_of_not_due hhead (hidle false), hsettle, walk_cons_stale hmem]
      exact ih hrest (fun id hid => hpairs id (List.mem_cons_of_mem _ hid)) hagree' h

end PaperTradeApi

/-! ## Runs -/

/-- A session with the prices of all evaluations. -/
structure ObservedSession where
  session : Session
  prices : PriceHistory

namespace ObservedSession

open PaperTradeApi

/-- A new session, with no prices seen. -/
def start (config : PaperTradingConfig) : ObservedSession := ⟨.start config, fun _ => []⟩

/-- One call, with the evaluations it makes: that of the order it adds, or those of the walk. -/
def step (t : ObservedSession) (input : Feed × Call) : ObservedSession where
  session := t.session.step input
  prices :=
    match input.2 with
    | .addOrder request | .addOrderConfirm request =>
      t.prices.record [t.session.api.nextOrderId] (input.1.price request.pair)
    | .cancelOrder _ => t.prices
    | .tradeUpdate pair =>
      t.prices.record (tradeUpdateTrace input.1 pair t.session.api).2.1 (input.1.price pair)

/-- The stored limits are right in this state. -/
def LimitsSound (t : ObservedSession) : Prop := PaperTradeApi.LimitsSound t.prices t.session.api

/-- The call does not end with the failed fill of a trailing order, and does not cancel an order
that has a limit. -/
def SparesLimits (t : ObservedSession) (input : Feed × Call) : Prop :=
  match input.2 with
  | .addOrder request | .addOrderConfirm request =>
    ¬TrailingFails input.1 [t.session.api.nextOrderId] (t.session.api.register request)
  | .cancelOrder orderId =>
    orderId ∈ t.session.api.openOrders → orderId ∉ t.session.api.trailingOrderLimits
  | .tradeUpdate pair => ¬TrailingFails input.1 (t.session.api.orderIds pair) t.session.api

/-- What carries the limits along a run. -/
structure Sound (t : ObservedSession) : Prop where
  wellFormed : t.session.WellFormed
  tracks : Tracks t.prices t.session.api
  prices_issued : ∀ id, t.prices id ≠ [] → id ∈ t.session.requests

variable {t : ObservedSession} {feed : Feed} {call : Call} {request : OrderRequest}

/-- A new session is sound. -/
theorem Sound.start (config : PaperTradingConfig) : (ObservedSession.start config).Sound where
  wellFormed := .start config
  tracks := ⟨by simp [ObservedSession.start, Session.start, PaperTradeApi.create],
    fun _ h => absurd h Finmap.notMem_empty⟩
  prices_issued := fun _ h => absurd rfl h

/-- A new order has neither a limit nor prices. -/
theorem Sound.register (h : t.Sound) (request : OrderRequest) :
    Tracks t.prices (t.session.api.register request) := by
  have hfresh := h.wellFormed.nextOrderId_fresh
  have hnoprices : t.prices t.session.api.nextOrderId = [] := by
    by_contra hne
    exact hfresh (h.prices_issued _ hne)
  have hnolimit : t.session.api.trailingOrderLimits.lookup t.session.api.nextOrderId = none :=
    Finmap.lookup_eq_none.mpr fun hmem => hfresh (h.wellFormed.limits_issued _ hmem)
  refine ⟨?_, ?_⟩
  · intro id other hother
    by_cases heq : id = t.session.api.nextOrderId
    · rw [heq, hnoprices]
      simp only [storedLimit, runningLimit, ite_self]
      exact hnolimit
    · have hopen := congrArg OrderView.opened (register_view_of_ne heq request)
      exact h.tracks.stored id other (hopen.symm.trans hother)
  · intro id hmem
    have hne : id ≠ t.session.api.nextOrderId := by
      intro heq
      exact Finmap.lookup_eq_none.mp hnolimit (heq ▸ hmem)
    have hopen := congrArg OrderView.opened (register_view_of_ne hne request)
    have hold := h.tracks.limits_open id hmem
    rw [← Finmap.lookup_isSome] at hold ⊢
    rwa [show (t.session.api.register request).openOrders.lookup id =
      t.session.api.openOrders.lookup id from hopen]

/-- A call that adds an order walks over that order alone. -/
theorem Sound.step_add (h : t.Sound) (feed : Feed) (hcall : call.request? = some request) :
    let walked := walk feed [t.session.api.nextOrderId] (t.session.api.register request)
    (t.step (feed, call)).session.api = walked.api ∧
      (t.step (feed, call)).prices = t.prices.record walked.evaluated (feed.price request.pair) ∧
      (t.SparesLimits (feed, call) ↔
        ¬TrailingFails feed [t.session.api.nextOrderId] (t.session.api.register request)) := by
  intro walked
  obtain ⟨result, api', heq, hcase, hstep⟩ := h.wellFormed.step_add feed hcall
  have hmem : t.session.api.nextOrderId ∈ (t.session.api.register request).openOrders :=
    Finmap.mem_of_lookup_eq_some (h.wellFormed.register_lookup request)
  have hwalked : walked.api = api' ∧ walked.evaluated = [t.session.api.nextOrderId] := by
    rcases result with fault | (_ | _)
    · simp only [walked, walk_cons_throws hmem heq, and_self]
    · simp only [walked, walk_cons_waiting hmem heq, walk, and_self]
    · simp only [walked, walk_cons_filled hmem heq, walk, and_self]
  rw [hwalked.1, hwalked.2]
  cases call with
  | addOrder _ | addOrderConfirm _ =>
    cases hcall
    exact ⟨congrArg Session.api hstep, rfl, Iff.rfl⟩
  | cancelOrder | tradeUpdate => cases hcall

/-- A trade update walks over the list of its pair. -/
theorem step_tradeUpdate (t : ObservedSession) (feed : Feed) (pair : TradablePair) :
    let walked := walk feed (t.session.api.orderIds pair) t.session.api
    (t.step (feed, .tradeUpdate pair)).session.api = walked.api.setOrderIds pair walked.left ∧
      (t.step (feed, .tradeUpdate pair)).prices =
        t.prices.record walked.evaluated (feed.price pair) := by
  simp only [ObservedSession.step, Session.step, perform, tradeUpdateHandler_eq,
    tradeUpdateTrace_eq, and_self]

/-- A call that adds an order keeps the limits right exactly when it spares them. -/
theorem Sound.tracks_add (h : t.Sound) (feed : Feed) (hcall : call.request? = some request) :
    (t.SparesLimits (feed, call) →
        Tracks (t.step (feed, call)).prices (t.step (feed, call)).session.api) ∧
      (¬t.SparesLimits (feed, call) → ¬(t.step (feed, call)).LimitsSound) := by
  obtain ⟨hapi, hprices, hiff⟩ := h.step_add feed hcall
  have hagree : Agree [t.session.api.nextOrderId] (t.session.api.register request)
      (t.session.api.register request) := ⟨rfl, rfl, rfl, rfl, fun _ _ => rfl⟩
  have hpairs : ∀ id ∈ [t.session.api.nextOrderId], ∀ r,
      (t.session.api.register request).openOrders.lookup id = some r → r.pair = request.pair := by
    intro id hid r hr
    rw [List.mem_singleton.mp hid, h.wellFormed.register_lookup, Option.some.injEq] at hr
    rw [← hr]
  obtain ⟨hkeeps, hbreaks⟩ := Tracks.walk feed (List.nodup_singleton _) hpairs hagree
    (h.register request)
  rw [LimitsSound, hapi, hprices, hiff, not_not]
  exact ⟨hkeeps, hbreaks⟩

/-- A trade update keeps the limits right exactly when it spares them. -/
theorem Sound.tracks_tradeUpdate (h : t.Sound) (feed : Feed) (pair : TradablePair) :
    (t.SparesLimits (feed, .tradeUpdate pair) →
        Tracks (t.step (feed, .tradeUpdate pair)).prices
          (t.step (feed, .tradeUpdate pair)).session.api) ∧
      (¬t.SparesLimits (feed, .tradeUpdate pair) →
        ¬(t.step (feed, .tradeUpdate pair)).LimitsSound) := by
  obtain ⟨hapi, hprices⟩ := t.step_tradeUpdate feed pair
  have hagree : Agree (t.session.api.orderIds pair) t.session.api t.session.api :=
    ⟨rfl, rfl, rfl, rfl, fun _ _ => rfl⟩
  obtain ⟨hkeeps, hbreaks⟩ := Tracks.walk feed (h.wellFormed.list_nodup pair)
    (fun id hid r hr => h.wellFormed.pair_of_listed hr hid) hagree h.tracks
  rw [LimitsSound, hapi, hprices, SparesLimits, not_not]
  constructor
  · intro hspares
    exact ⟨(hkeeps hspares).stored, (hkeeps hspares).limits_open⟩
  · intro hfails hsound
    exact hbreaks hfails ⟨hsound.extreme, hsound.limits_open⟩

/-- A cancellation keeps the limits right exactly when the order has none. -/
theorem Sound.tracks_cancelOrder (h : t.Sound) (feed : Feed) (orderId : String) :
    (t.SparesLimits (feed, .cancelOrder orderId) →
        Tracks (t.step (feed, .cancelOrder orderId)).prices
          (t.step (feed, .cancelOrder orderId)).session.api) ∧
      (¬t.SparesLimits (feed, .cancelOrder orderId) →
        ¬(t.step (feed, .cancelOrder orderId)).LimitsSound) := by
  rw [LimitsSound, SparesLimits]
  simp only [ObservedSession.step, Session.step_cancelOrder]
  by_cases hopen : orderId ∈ t.session.api.openOrders
  · rw [if_pos hopen, Classical.not_imp, not_not]
    constructor
    · intro hspares
      have hnolimit := hspares hopen
      refine ⟨?_, ?_⟩
      · intro id request hlookup
        rw [UnorderedMap.lookup_erase_eq] at hlookup
        split at hlookup
        · cases hlookup
        · exact h.tracks.stored id request hlookup
      · intro id hmem
        have hne : id ≠ orderId := fun heq => hnolimit (heq ▸ hmem)
        exact Finmap.mem_erase.mpr ⟨hne, h.tracks.limits_open id hmem⟩
    · intro hlimit hsound
      exact (Finmap.mem_erase.mp (hsound.limits_open orderId hlimit.2)).1 rfl
  · rw [if_neg hopen]
    exact ⟨fun _ => h.tracks, fun hnot => absurd (fun hmem => absurd hmem hopen) hnot⟩

/-- A step that spares the limits keeps them tracking, and any other one makes them unsound. -/
theorem Sound.tracks_step (h : t.Sound) (input : Feed × Call) :
    (t.SparesLimits input → Tracks (t.step input).prices (t.step input).session.api) ∧
      (¬t.SparesLimits input → ¬(t.step input).LimitsSound) := by
  obtain ⟨feed, call⟩ := input
  cases call with
  | addOrder request | addOrderConfirm request => exact h.tracks_add feed rfl
  | cancelOrder orderId => exact h.tracks_cancelOrder feed orderId
  | tradeUpdate pair => exact h.tracks_tradeUpdate feed pair

/-- Prices are recorded for issued ids only. -/
theorem Sound.step_prices_issued (h : t.Sound) (input : Feed × Call) :
    ∀ id, (t.step input).prices id ≠ [] → id ∈ (t.step input).session.requests := by
  have hold : ∀ id, t.prices id ≠ [] → id ∈ (t.step input).session.requests := fun id hne =>
    Session.step_requests_subset _ (h.prices_issued id hne)
  have hrecord : ∀ evaluated price id, t.prices.record evaluated price id ≠ [] →
      (∀ other ∈ evaluated, other ∈ (t.step input).session.requests) →
        id ∈ (t.step input).session.requests := by
    intro evaluated price id hne hall
    by_cases hmem : id ∈ evaluated
    · exact hall id hmem
    · rw [PriceHistory.record, if_neg fun hboth => hmem hboth.1] at hne
      exact hold id hne
  obtain ⟨feed, call⟩ := input
  intro id hne
  have hadd : ∀ request, call.request? = some request →
      id ∈ (t.step (feed, call)).session.requests := by
    intro request hcall
    obtain ⟨-, hprices, -⟩ := h.step_add feed hcall
    obtain ⟨result, api', -, -, hstep⟩ := h.wellFormed.step_add feed hcall
    rw [hprices] at hne
    refine hrecord _ _ id hne fun other hother => ?_
    have hnew := List.mem_singleton.mp (walk_evaluated_subset feed _ _ other hother)
    rw [ObservedSession.step, hstep, hnew]
    exact Finmap.mem_insert.mpr (.inl rfl)
  cases call with
  | addOrder request | addOrderConfirm request => exact hadd request rfl
  | cancelOrder orderId => exact hold id hne
  | tradeUpdate pair =>
    rw [(t.step_tradeUpdate feed pair).2] at hne
    refine hrecord _ _ id hne fun other hother => ?_
    obtain ⟨request, hrequest, -⟩ := h.wellFormed.list_request pair other
      (walk_evaluated_subset feed _ _ other hother)
    exact Session.step_requests_subset _ (Finmap.mem_of_lookup_eq_some hrequest)

/-- The stored limits are right in every state of a run exactly when no call of it ends with the
failed fill of a trailing order or cancels an order that has a limit. -/
theorem run_limitsSound_iff (config : PaperTradingConfig) (inputs : List (Feed × Call)) :
    EveryStep step SparesLimits (start config) inputs ↔
      ∀ before, before <+: inputs → (before.foldl step (start config)).LimitsSound :=
  everyStep_iff_of_invariant
    (fun _ input h hspares => ⟨h.wellFormed.step input, (h.tracks_step input).1 hspares,
      h.step_prices_issued input⟩)
    (fun _ h => h.tracks.limitsSound) (fun _ input h => (h.tracks_step input).2)
    (Sound.start config) inputs

/-- A trailing order to sell at a fall of one tenth is evaluated at 20 and then triggers at 10,
when the account holds less than it sells: it stays open without its limit. -/
theorem run_loses_limit :
    let request := createTrailingStopLossOrder ⟨"BTC", "GBP"⟩ .sell (1 / 10) 5
    let last := [(Feed.quote 20, Call.addOrder request),
      (Feed.quote 10, Call.tradeUpdate ⟨"BTC", "GBP"⟩)].foldl step (start ⟨0, [("BTC", 1)]⟩)
    last.session.api.openOrders.lookup "1" = some request ∧ last.prices "1" = [20, 10] ∧
      last.session.api.trailingOrderLimits.lookup "1" = none ∧ ¬last.LimitsSound := by
  intro request last
  have hopen : last.session.api.openOrders.lookup "1" = some request := by decide +kernel
  have hprices : last.prices "1" = [20, 10] := by decide +kernel
  have hlimit : last.session.api.trailingOrderLimits.lookup "1" = none := by decide +kernel
  refine ⟨hopen, hprices, hlimit, ?_⟩
  intro hsound
  have hextreme := hsound.extreme "1" request hopen rfl (by simp [hprices])
  rw [hlimit, hprices] at hextreme
  cases hextreme

end ObservedSession

end MarketBlocks
