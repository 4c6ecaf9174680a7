import MarketBlocks.Library.Interleaving
import MarketBlocks.PaperTrading.Session
import MarketBlocks.Reporting.TestLogger

/-!
# What the trades file holds

The closed orders of an account only grow, and the logger writes them from an index on. At every
moment the trades file is an interleaving of the closed orders of each exchange up to its index, so
it is complete exactly when every index has reached the end.
-/

namespace MarketBlocks

open Library

/-! ## Closed orders only grow -/

namespace PaperTradeApi

variable {feed : Feed}

/-- Executing an order takes back none that was closed. -/
theorem executeOrder_closedOrders (feed : Feed) (orderId : String) (request : OrderRequest) (fillPrice : ℚ)
    (api : PaperTradeApi) :
    api.closedOrders <+: (executeOrder feed orderId request fillPrice api).2.closedOrders := by
  rw [executeOrder]
  split
  · exact List.prefix_rfl
  · exact List.prefix_append _ _

/-- Evaluating an order takes back none that was closed. -/
theorem tryFillOrder_closedOrders (feed : Feed) (orderId : String) (api : PaperTradeApi) :
    api.closedOrders <+: (tryFillOrder feed orderId api).2.closedOrders := by
  rw [tryFillOrder]
  cases api.openOrders.lookup orderId with
  | none => exact List.prefix_rfl
  | some request =>
    simp only
    split
    · exact List.prefix_rfl
    · cases hselect : (selectFill orderId request (feed.price request.pair) api.trailingOrderLimits).1 with
      | none => exact List.prefix_rfl
      | some fillPrice =>
        have hexecute := executeOrder_closedOrders feed orderId request fillPrice
          { api with trailingOrderLimits :=
            (selectFill orderId request (feed.price request.pair) api.trailingOrderLimits).2 }
        simp only
        split
        · next heq =>
          rw [heq] at hexecute
          exact hexecute
        · next heq =>
          rw [heq] at hexecute
          exact hexecute

/-- Evaluating any number of orders takes back none. -/
theorem tradeUpdateLoop_closedOrders (pair : TradablePair) (remaining index : ℕ)
    (evaluated : List String) (api : PaperTradeApi) :
    api.closedOrders <+:
      (tradeUpdateLoop feed pair remaining index evaluated api).2.2.closedOrders := by
  induction remaining generalizing index evaluated api with
  | zero => exact List.prefix_rfl
  | succ remaining ih =>
    rw [tradeUpdateLoop]
    cases (api.orderIds pair)[index]? with
    | none => exact List.prefix_rfl
    | some id =>
      simp only
      split
      · exact ih _ _ (api.setOrderIds pair ((api.orderIds pair).eraseIdx index))
      · have hfill := tryFillOrder_closedOrders feed id api
        rcases htry : tryFillOrder feed id api with ⟨fault | filled, api'⟩
        · rw [htry] at hfill
          exact hfill
        · rw [htry] at hfill
          cases filled with
          | false => exact hfill.trans (ih _ _ api')
          | true => exact hfill.trans (ih _ _ (api'.setOrderIds pair ((api'.orderIds pair).eraseIdx index)))

/-- The handler of trades takes back none. -/
theorem tradeUpdateHandler_closedOrders (pair : TradablePair) (api : PaperTradeApi) :
    api.closedOrders <+: (tradeUpdateHandler feed pair api).2.closedOrders :=
  tradeUpdateLoop_closedOrders pair _ 0 [] (api.setOrderIds pair (api.orderIds pair))

/-- Every call leaves the closed orders as they are, or appends to them. -/
theorem perform_closedOrders (call : Call) (api : PaperTradeApi) :
    api.closedOrders <+: (perform feed call api).2.closedOrders := by
  cases call with
  | addOrder request =>
    rw [perform_snd_of_request rfl]
    exact tryFillOrder_closedOrders feed _ (api.register request)
  | addOrderConfirm request =>
    rw [perform_snd_of_request rfl]
    exact tryFillOrder_closedOrders feed _ (api.register request)
  | cancelOrder orderId =>
    by_cases hopen : orderId ∈ api.openOrders
    · simp only [perform, cancelOrder, if_pos hopen]
      exact List.prefix_rfl
    · simp only [perform, cancelOrder, if_neg hopen]
      exact List.prefix_rfl
  | tradeUpdate pair => exact tradeUpdateHandler_closedOrders pair api

end PaperTradeApi

/-! ## The state of the trades file -/

/-- The closed orders of an exchange. -/
def closedOf (apis : List PaperTradeApi) (exchange : ℕ) : List OrderDescription :=
  ((apis[exchange]?).map (·.closedOrders)).getD []

namespace TestLogger

/-- How many closed orders of an exchange were written. -/
def indexOf (logger : TestLogger) (exchange : ℕ) : ℕ :=
  ((logger.exchangeData[exchange]?).map (·.closedOrderIndex)).getD 0

/-- One row for each closed order of each exchange, in the order they were closed. -/
def Complete (logger : TestLogger) (apis : List PaperTradeApi) : Prop :=
  Interleaving logger.tradesFile (closedOf apis)

/-- For one exchange a complete file is the list of its closed orders. -/
theorem complete_singleton_iff {logger : TestLogger} {api : PaperTradeApi} :
    logger.Complete [api] ↔ logger.tradesFile = api.closedOrders := by
  have hother : ∀ k, k ≠ 0 → closedOf [api] k = [] := by
    intro k hk
    cases k with
    | zero => exact absurd rfl hk
    | succ k => rfl
  exact interleaving_single_iff hother

/-- The closed orders up to the indices are written, and no others. -/
structure Flushed (logger : TestLogger) (apis : List PaperTradeApi) : Prop where
  length : logger.exchangeData.length = apis.length
  written : Interleaving logger.tradesFile fun k => (closedOf apis k).take (logger.indexOf k)
  index_le : ∀ k, logger.indexOf k ≤ (closedOf apis k).length

variable {logger : TestLogger} {apis apis' : List PaperTradeApi} {k : ℕ}

/-- A new logger has flushed what there is to flush: nothing. -/
theorem flushed_create (apis : List PaperTradeApi) : Flushed (create apis.length) apis := by
  have hindex (k : ℕ) : (create apis.length).indexOf k = 0 := by
    rw [indexOf, create, List.getElem?_replicate]
    split <;> rfl
  constructor
  · exact List.length_replicate
  · simp only [hindex, List.take_zero]
    exact interleaving_nil
  · intro k
    rw [hindex]
    exact Nat.zero_le _

/-- A flushed file is complete when every index has reached the end. -/
theorem Flushed.complete_iff (h : logger.Flushed apis) :
    logger.Complete apis ↔ ∀ k, logger.indexOf k = (closedOf apis k).length := by
  constructor
  · intro hcomplete k
    have hlength := h.written.length_eq hcomplete (fun k => List.length_take_le' _ _) k
    rw [List.length_take, Nat.min_eq_left (h.index_le k)] at hlength
    exact hlength
  · intro hindex
    have hparts : (fun k => (closedOf apis k).take (logger.indexOf k)) = closedOf apis := by
      funext k
      rw [hindex k, List.take_length]
    rw [Complete, ← hparts]
    exact h.written

/-- Orders that close leave the written ones where they are. -/
theorem Flushed.grow (h : logger.Flushed apis) (hlength : apis'.length = apis.length)
    (hfront : ∀ k, closedOf apis k <+: closedOf apis' k) : logger.Flushed apis' := by
  have htake (k : ℕ) :
      (closedOf apis' k).take (logger.indexOf k) = (closedOf apis k).take (logger.indexOf k) := by
    obtain ⟨more, hmore⟩ := hfront k
    rw [← hmore, List.take_append_of_le_length (h.index_le k)]
  constructor
  · rw [h.length, hlength]
  · simp only [htake]
    exact h.written
  · intro k
    exact (h.index_le k).trans (hfront k).length_le

/-! ## Flushing one exchange -/

/-- The index moves on to the last closed order. -/
theorem flushExchange_index (exchange : TestLoggerExchangeData)
    (closedOrders tradesFile : List OrderDescription) :
    (flushExchange exchange closedOrders tradesFile).1.closedOrderIndex =
      max exchange.closedOrderIndex closedOrders.length := by
  cases closedOrders with
  | nil => simp [flushExchange]
  | cons order rest => rfl

/-- The orders behind the index are written. -/
theorem flushExchange_file (exchange : TestLoggerExchangeData)
    (closedOrders tradesFile : List OrderDescription) :
    (flushExchange exchange closedOrders tradesFile).2 =
      tradesFile ++ closedOrders.drop exchange.closedOrderIndex := by
  cases closedOrders with
  | nil => simp [flushExchange]
  | cons order rest => rfl

/-- The body of the loop of `flush_trades` for the exchange with the given position. -/
def flushNext (apis : List PaperTradeApi) (k : ℕ) (logger : TestLogger) : TestLogger :=
  match logger.exchangeData[k]?, apis[k]? with
  | some exchange, some api =>
    let (exchange, tradesFile) := flushExchange exchange api.closedOrders logger.tradesFile
    { exchangeData := logger.exchangeData.set k exchange, tradesFile }
  | _, _ => logger

/-- What a flush of an exchange makes of the logger. -/
theorem flushNext_of_lt {k : ℕ} (hk : k < apis.length) (hk' : k < logger.exchangeData.length) :
    logger.flushNext apis k =
      { exchangeData := logger.exchangeData.set k
          (flushExchange logger.exchangeData[k] apis[k].closedOrders logger.tradesFile).1
        tradesFile := logger.tradesFile ++ (closedOf apis k).drop (logger.indexOf k) } := by
  have hclosed : closedOf apis k = apis[k].closedOrders := by
    rw [closedOf, List.getElem?_eq_getElem hk]
    rfl
  have hindexOf : logger.indexOf k = logger.exchangeData[k].closedOrderIndex := by
    rw [indexOf, List.getElem?_eq_getElem hk']
    rfl
  rw [TestLogger.flushNext, List.getElem?_eq_getElem hk', List.getElem?_eq_getElem hk, hclosed,
    hindexOf, ← flushExchange_file]

/-- There is nothing to flush behind the last exchange. -/
theorem flushNext_of_le {k : ℕ} (hk : apis.length ≤ k) : logger.flushNext apis k = logger := by
  rw [TestLogger.flushNext, List.getElem?_eq_none hk]
  cases logger.exchangeData[k]? <;> rfl

/-- A flush of an exchange moves its index to the end, and leaves the others. -/
theorem Flushed.indexOf_flushNext (h : logger.Flushed apis) (k j : ℕ) :
    (logger.flushNext apis k).indexOf j =
      if j = k then (closedOf apis k).length else logger.indexOf j := by
  have hle := h.index_le k
  rcases lt_or_ge k apis.length with hk | hk
  · have hk' : k < logger.exchangeData.length := h.length ▸ hk
    have hclosed : closedOf apis k = apis[k].closedOrders := by
      rw [closedOf, List.getElem?_eq_getElem hk]
      rfl
    have hindexOf : logger.indexOf k = logger.exchangeData[k].closedOrderIndex := by
      rw [indexOf, List.getElem?_eq_getElem hk']
      rfl
    rw [flushNext_of_lt hk hk', indexOf, List.getElem?_set]
    by_cases hj : k = j
    · subst hj
      rw [if_pos rfl, if_pos hk', if_pos rfl, Option.map_some, Option.getD_some,
        flushExchange_index, ← hindexOf, ← hclosed]
      exact max_eq_right hle
    · rw [if_neg hj, if_neg (Ne.symm hj)]
      rfl
  · rw [flushNext_of_le hk]
    split
    · next hj =>
      have hclosed : closedOf apis k = [] := by
        rw [closedOf, List.getElem?_eq_none hk]
        rfl
      rw [hclosed] at hle ⊢
      rw [hj]
      exact Nat.le_zero.mp hle
    · rfl

/-- After its turn in the loop an exchange is written to the end. -/
theorem Flushed.flushNext (h : logger.Flushed apis) (k : ℕ) :
    (logger.flushNext apis k).Flushed apis := by
  rcases lt_or_ge k apis.length with hk | hk
  · have hnext := flushNext_of_lt hk (h.length ▸ hk)
    refine ⟨?_, ?_, fun j => ?_⟩
    · rw [hnext, List.length_set, h.length]
    · have hwritten := h.written.append k ((closedOf apis k).drop (logger.indexOf k))
      rw [List.take_append_drop] at hwritten
      have hparts : (fun j => (closedOf apis j).take ((logger.flushNext apis k).indexOf j)) =
          Function.update (fun j => (closedOf apis j).take (logger.indexOf j)) k (closedOf apis k) := by
        funext j
        rw [h.indexOf_flushNext]
        by_cases hj : j = k
        · subst hj
          rw [if_pos rfl, List.take_length, Function.update_self]
        · rw [if_neg hj, Function.update_of_ne hj]
      rw [hparts, hnext]
      exact hwritten
    · rw [h.indexOf_flushNext]
      split
      · next hj => rw [hj]
      · exact h.index_le j
  · rw [flushNext_of_le hk]
    exact h

/-- The exchanges behind the first ones, taken one after another. -/
theorem foldl_flushNext (exchanges : List TestLoggerExchangeData) (later : List PaperTradeApi)
    (h : exchanges.length = later.length) (flushed : List TestLoggerExchangeData)
    (earlier : List PaperTradeApi) (hflushed : flushed.length = earlier.length)
    (tradesFile : List OrderDescription) :
    (List.range' flushed.length later.length).foldl
        (fun (logger : TestLogger) k => logger.flushNext (earlier ++ later) k)
        ({ exchangeData := flushed ++ exchanges, tradesFile } : TestLogger) =
      ({ exchangeData := flushed ++ (flushFrom (exchanges.zip later) tradesFile).1
         tradesFile := (flushFrom (exchanges.zip later) tradesFile).2 } : TestLogger) := by
  induction exchanges generalizing later flushed earlier tradesFile with
  | nil =>
    rw [List.length_nil] at h
    rw [← h]
    rfl
  | cons exchange rest ih =>
    cases later with
    | nil => cases h
    | cons api later =>
      have hnext : flushNext (earlier ++ api :: later) flushed.length
          { exchangeData := flushed ++ exchange :: rest, tradesFile } =
          { exchangeData := (flushed ++ [(flushExchange exchange api.closedOrders tradesFile).1]) ++ rest
            tradesFile := (flushExchange exchange api.closedOrders tradesFile).2 } := by
        have hexchange : (flushed ++ exchange :: rest)[flushed.length]? = some exchange := by simp
        have hapi : (earlier ++ api :: later)[flushed.length]? = some api := by simp [hflushed]
        simp only [flushNext, hexchange, hapi]
        simp
      rw [List.length_cons, List.range'_succ, List.foldl_cons, hnext, List.append_cons earlier api later]
      have hrest := ih later (Nat.succ_inj.mp h)
        (flushed ++ [(flushExchange exchange api.closedOrders tradesFile).1]) (earlier ++ [api])
        (by simp [hflushed]) (flushExchange exchange api.closedOrders tradesFile).2
      rw [List.length_append, List.length_singleton] at hrest
      rw [hrest, List.append_assoc]
      rfl

/-- `flush_trades` takes the exchanges one after another. -/
theorem flushTrades_eq_flushNext (h : logger.exchangeData.length = apis.length) :
    logger.flushTrades apis =
      (List.range apis.length).foldl (fun logger k => logger.flushNext apis k) logger := by
  have hall := foldl_flushNext logger.exchangeData apis h [] [] rfl logger.tradesFile
  rw [List.range_eq_range']
  exact hall.symm

/-- The exchanges that the loop is through with are written to the end. -/
theorem Flushed.foldl_flushNext (h : logger.Flushed apis) (n : ℕ) :
    ((List.range n).foldl (fun logger k => logger.flushNext apis k) logger).Flushed apis ∧
      ∀ k < n, ((List.range n).foldl (fun logger k => logger.flushNext apis k) logger).indexOf k =
        (closedOf apis k).length := by
  induction n with
  | zero => exact ⟨h, fun k hk => absurd hk (Nat.not_lt_zero k)⟩
  | succ n ih =>
    obtain ⟨hflushed, hindex⟩ := ih
    rw [List.range_succ, List.foldl_append, List.foldl_cons, List.foldl_nil]
    constructor
    · exact hflushed.flushNext n
    · intro k hk
      rw [hflushed.indexOf_flushNext]
      split
      · next heq => rw [heq]
      · exact hindex k (by omega)

/-- A flush writes every order that was closed before. -/
theorem Flushed.complete_flushTrades (h : logger.Flushed apis) :
    (logger.flushTrades apis).Complete apis := by
  obtain ⟨hflushed, hindex⟩ := h.foldl_flushNext apis.length
  rw [flushTrades_eq_flushNext h.length, hflushed.complete_iff]
  intro k
  rcases lt_or_ge k apis.length with hk | hk
  · exact hindex k hk
  · have hclosed : closedOf apis k = [] := by
      rw [closedOf, List.getElem?_eq_none hk]
      rfl
    have hle := hflushed.index_le k
    rw [hclosed] at hle ⊢
    exact Nat.le_zero.mp hle

end TestLogger

end MarketBlocks
