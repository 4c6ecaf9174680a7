import MarketBlocks.PaperTrading.Evaluation
import Mathlib.Data.List.Basic

/-!
# The walk of a trade update

The handler walks the id list of its pair with a manual index and erases from it on the
way. `walk` is the same computation by recursion on the list: stale ids and filled orders
are dropped, waiting orders are kept, and a fill that cannot be paid for ends the walk with
the unvisited rest of the list in place.
-/

namespace MarketBlocks

open Library

/-- One call of `try_fill_order` for an open order. -/
structure Evaluation where
  feed : Feed
  api : PaperTradeApi
  id : String
  request : OrderRequest

namespace Evaluation

/-- The last trade that the evaluation sees. -/
def price (e : Evaluation) : ℚ := e.feed.price e.request.pair

/-- The fill price that `execute_order` receives, if it is called. -/
def executionPrice (e : Evaluation) : Option ℚ := e.api.trigger e.feed e.id e.request

end Evaluation

namespace PaperTradeApi

/-- What a walk returns: its result, the ids it evaluated, the ids it leaves in the list, and
the account, whose id lists are still the old ones. -/
structure Walk where
  result : Except Fault Unit
  evaluated : List String
  left : List String
  api : PaperTradeApi

/-- Walk the given ids. -/
def walk (feed : Feed) : List String → PaperTradeApi → Walk
  | [], api => ⟨.ok (), [], [], api⟩
  | id :: rest, api =>
    if id ∉ api.openOrders then walk feed rest api
    else
      match tryFillOrder feed id api with
      | (.error fault, api) => ⟨.error fault, [id], id :: rest, api⟩
      | (.ok true, api) =>
        let next := walk feed rest api
        { next with evaluated := id :: next.evaluated }
      | (.ok false, api) =>
        let next := walk feed rest api
        { next with evaluated := id :: next.evaluated, left := id :: next.left }

/-- An id without an open order leaves the list unevaluated. -/
theorem walk_cons_stale {feed : Feed} {id : String} {rest : List String} {api : PaperTradeApi}
    (hstale : id ∉ api.openOrders) : walk feed (id :: rest) api = walk feed rest api := if_pos hstale

section Cons

variable {feed : Feed} {id : String} {rest : List String} {api api' : PaperTradeApi}

/-- A fault ends the walk and leaves the id where it is. -/
theorem walk_cons_throws {fault : Fault} (hopen : id ∈ api.openOrders)
    (htry : tryFillOrder feed id api = (.error fault, api')) :
    walk feed (id :: rest) api = ⟨.error fault, [id], id :: rest, api'⟩ := by
  rw [walk, if_neg (not_not.mpr hopen), htry]

/-- An order that is filled leaves the list. -/
theorem walk_cons_filled (hopen : id ∈ api.openOrders)
    (htry : tryFillOrder feed id api = (.ok true, api')) :
    walk feed (id :: rest) api =
      { walk feed rest api' with evaluated := id :: (walk feed rest api').evaluated } := by
  rw [walk, if_neg (not_not.mpr hopen), htry]

/-- An order that is not stays in the list. -/
theorem walk_cons_waiting (hopen : id ∈ api.openOrders)
    (htry : tryFillOrder feed id api = (.ok false, api')) :
    walk feed (id :: rest) api =
      { walk feed rest api' with
        evaluated := id :: (walk feed rest api').evaluated
        left := id :: (walk feed rest api').left } := by
  rw [walk, if_neg (not_not.mpr hopen), htry]

/-- An order that does not end the walk hands its account on to the rest of the list. -/
theorem walk_cons_ok {filled : Bool} (hopen : id ∈ api.openOrders)
    (htry : tryFillOrder feed id api = (.ok filled, api')) :
    (walk feed (id :: rest) api).api = (walk feed rest api').api ∧
      (walk feed (id :: rest) api).result = (walk feed rest api').result := by
  cases filled with
  | true => simp [walk_cons_filled hopen htry]
  | false => simp [walk_cons_waiting hopen htry]

end Cons

/-- Two lists are walked one after the other, unless the first walk throws. -/
theorem walk_append (feed : Feed) (ids more : List String) (api : PaperTradeApi) :
    ((walk feed (ids ++ more) api).result, (walk feed (ids ++ more) api).api) =
      match (walk feed ids api).result with
      | .error fault => (.error fault, (walk feed ids api).api)
      | .ok () => ((walk feed more (walk feed ids api).api).result,
          (walk feed more (walk feed ids api).api).api) := by
  induction ids generalizing api with
  | nil => rfl
  | cons id rest ih =>
    rw [List.cons_append]
    by_cases hopen : id ∈ api.openOrders
    · rcases htry : tryFillOrder feed id api with ⟨fault | filled, api'⟩
      · rw [walk_cons_throws hopen htry, walk_cons_throws hopen htry]
      · rw [(walk_cons_ok hopen htry).1, (walk_cons_ok hopen htry).2, (walk_cons_ok hopen htry).1,
          (walk_cons_ok hopen htry).2]
        exact ih api'
    · rw [walk_cons_stale hopen, walk_cons_stale hopen]
      exact ih api

/-! ## The indexed loop is the walk -/

variable (feed : Feed) (pair : TradablePair)

/-- The ids of a pair are those that were set. -/
@[simp] theorem orderIds_setOrderIds_self (api : PaperTradeApi) (ids : List String) :
    (api.setOrderIds pair ids).orderIds pair = ids := by
  simp [orderIds, setOrderIds, UnorderedMap.findOrDefault]

/-- Replacing the list of one pair leaves the other lists alone. -/
theorem orderIds_setOrderIds (api : PaperTradeApi) (other : TradablePair) (ids : List String) :
    (api.setOrderIds pair ids).orderIds other = if other = pair then ids else api.orderIds other :=
  UnorderedMap.findOrDefault_insert _ _ _ _

/-- The last ids that were set count. -/
@[simp] theorem setOrderIds_setOrderIds (api : PaperTradeApi) (ids ids' : List String) :
    (api.setOrderIds pair ids).setOrderIds pair ids' = api.setOrderIds pair ids' := by
  simp [setOrderIds]

/-- An evaluation neither reads nor writes the id lists. -/
theorem tryFillOrder_setOrderIds (id : String) (api : PaperTradeApi) (ids : List String) :
    tryFillOrder feed id (api.setOrderIds pair ids) =
      ((tryFillOrder feed id api).1, (tryFillOrder feed id api).2.setOrderIds pair ids) := by
  cases hopen : api.openOrders.lookup id with
  | none =>
    have hopen' : (api.setOrderIds pair ids).openOrders.lookup id = none := hopen
    simp [tryFillOrder, hopen, hopen']
  | some request =>
    have hopen' : (api.setOrderIds pair ids).openOrders.lookup id = some request := hopen
    obtain ⟨result, api', heq, hcase⟩ := tryFillOrder_evaluated feed hopen
    rw [heq]
    cases hcase with
    | noPrice hprice => exact tryFillOrder_of_no_price hopen' hprice
    | waiting hprice htrigger => exact tryFillOrder_of_trigger_none hopen' hprice htrigger
    | filled fillPrice htrigger hcovers => exact tryFillOrder_of_covers hopen' htrigger hcovers
    | unpaid fillPrice htrigger hcovers => exact tryFillOrder_of_not_covers hopen' htrigger hcovers

/-- A walk neither reads nor writes the id lists. -/
theorem walk_setOrderIds (ids : List String) (api : PaperTradeApi) (list : List String) :
    walk feed ids (api.setOrderIds pair list) =
      { walk feed ids api with api := (walk feed ids api).api.setOrderIds pair list } := by
  induction ids generalizing api with
  | nil => rfl
  | cons id rest ih =>
    have hsame : id ∈ (api.setOrderIds pair list).openOrders ↔ id ∈ api.openOrders := Iff.rfl
    by_cases hopen : id ∈ api.openOrders
    · have htry' := tryFillOrder_setOrderIds feed pair id api list
      rcases htry : tryFillOrder feed id api with ⟨fault | (_ | _), api'⟩
      · rw [htry] at htry'
        rw [walk_cons_throws hopen htry, walk_cons_throws (hsame.mpr hopen) htry']
      · rw [htry] at htry'
        rw [walk_cons_waiting hopen htry, walk_cons_waiting (hsame.mpr hopen) htry', ih]
      · rw [htry] at htry'
        rw [walk_cons_filled hopen htry, walk_cons_filled (hsame.mpr hopen) htry', ih]
    · rw [walk_cons_stale hopen, walk_cons_stale (hsame.not.mpr hopen), ih]

/-- With the visited part of the vector split off at the index, the loop performs the walk. -/
theorem tradeUpdateLoop_eq_walk (rest kept evaluated : List String) (api : PaperTradeApi) :
    tradeUpdateLoop feed pair rest.length kept.length evaluated
        (api.setOrderIds pair (kept ++ rest)) =
      ((walk feed rest api).result, evaluated ++ (walk feed rest api).evaluated,
        (walk feed rest api).api.setOrderIds pair (kept ++ (walk feed rest api).left)) := by
  induction rest generalizing kept evaluated api with
  | nil => simp [tradeUpdateLoop, walk]
  | cons id rest ih =>
    have hget : (kept ++ id :: rest)[kept.length]? = some id := by simp
    have herase : (kept ++ id :: rest).eraseIdx kept.length = kept ++ rest := by
      simp [List.eraseIdx_append_of_length_le]
    rw [List.length_cons, tradeUpdateLoop, orderIds_setOrderIds_self, hget]
    by_cases hopen : id ∈ api.openOrders
    · have hopen' : id ∈ (api.setOrderIds pair (kept ++ id :: rest)).openOrders := hopen
      simp only [hopen', not_true_eq_false, if_false, tryFillOrder_setOrderIds, walk, hopen]
      rcases htry : tryFillOrder feed id api with ⟨result, api'⟩
      rcases result with fault | filled
      · rfl
      · cases filled with
        | true =>
          simp only [orderIds_setOrderIds_self, setOrderIds_setOrderIds, herase, ih,
            List.append_assoc, List.singleton_append]
        | false =>
          -- the waiting order moves to the visited part of the vector
          have hnext := ih (kept ++ [id]) (evaluated ++ [id]) api'
          simpa only [List.length_append, List.length_singleton, List.append_assoc,
            List.singleton_append] using hnext
    · have hopen' : id ∉ (api.setOrderIds pair (kept ++ id :: rest)).openOrders := hopen
      simp only [hopen', not_false_eq_true, if_true, walk, hopen, setOrderIds_setOrderIds, herase, ih]

/-- The handler is one walk over the id list of its pair. -/
theorem tradeUpdateTrace_eq (api : PaperTradeApi) :
    tradeUpdateTrace feed pair api =
      ((walk feed (api.orderIds pair) api).result, (walk feed (api.orderIds pair) api).evaluated,
        (walk feed (api.orderIds pair) api).api.setOrderIds pair
          (walk feed (api.orderIds pair) api).left) := by
  have h := tradeUpdateLoop_eq_walk feed pair (api.orderIds pair) [] [] api
  simpa [tradeUpdateTrace] using h

/-- The handler is a walk over the ids of the pair. -/
theorem tradeUpdateHandler_eq (api : PaperTradeApi) :
    tradeUpdateHandler feed pair api =
      ((walk feed (api.orderIds pair) api).result,
        (walk feed (api.orderIds pair) api).api.setOrderIds pair
          (walk feed (api.orderIds pair) api).left) := by
  rw [tradeUpdateHandler, tradeUpdateTrace_eq]

/-! ## What a walk preserves -/

variable {feed}

/-- The evaluations of a walk. -/
def walkEvaluations (feed : Feed) : List String → PaperTradeApi → List Evaluation
  | [], _ => []
  | id :: rest, api =>
    match api.openOrders.lookup id with
    | none => walkEvaluations feed rest api
    | some request =>
      { feed, api, id, request } ::
        match tryFillOrder feed id api with
        | (.error _, _) => []
        | (.ok _, api) => walkEvaluations feed rest api

/-- An evaluation of a walk is about an open order out of its list. It meets an account of which all
holds that evaluations keep. -/
theorem of_mem_walkEvaluations {P : PaperTradeApi → Prop}
    (hstep : ∀ api id request result api', P api → Evaluated feed id request api result api' → P api')
    {ids : List String} (hP : P api) {e : Evaluation} (he : e ∈ walkEvaluations feed ids api) :
    P e.api ∧ e.id ∈ ids ∧ e.feed = feed ∧ e.api.openOrders.lookup e.id = some e.request := by
  induction ids generalizing api with
  | nil => cases he
  | cons id rest ih =>
    rw [walkEvaluations] at he
    cases hlookup : api.openOrders.lookup id with
    | none =>
      rw [hlookup] at he
      exact (ih hP he).imp_right (.imp_left (List.mem_cons_of_mem _))
    | some request =>
      rw [hlookup] at he
      rcases List.mem_cons.mp he with rfl | he
      · exact ⟨hP, List.mem_cons_self, rfl, hlookup⟩
      · obtain ⟨result, api', heq, hcase⟩ := tryFillOrder_evaluated feed hlookup
        rw [heq] at he
        cases result with
        | error fault => cases he
        | ok filled =>
          exact (ih (hstep api id request _ api' hP hcase) he).imp_right
            (.imp_left (List.mem_cons_of_mem _))

/-- An order that a walk evaluates was open when the walk began, and the fee is still the same. -/
theorem lookup_of_mem_walkEvaluations {ids : List String} {e : Evaluation}
    (he : e ∈ walkEvaluations feed ids api) :
    e.api.fee = api.fee ∧ api.openOrders.lookup e.id = some e.request := by
  have hmeets := of_mem_walkEvaluations (P := fun api' => api'.fee = api.fee ∧
    ∀ id request, api'.openOrders.lookup id = some request → api.openOrders.lookup id = some request)
    (fun api' id request result api'' hsame hcase => by
      refine ⟨?_, fun other r h => hsame.2 other r (hcase.lookup_openOrders_of_some h)⟩
      cases hcase <;> exact hsame.1) ⟨rfl, fun _ _ h => h⟩ he
  exact ⟨hmeets.1.1, hmeets.1.2 _ _ hmeets.2.2.2⟩

/-- A property of the account that every evaluation of a walk keeps is kept by the whole walk, also
by one that throws. -/
theorem walk_preserves_of_evaluations {P : PaperTradeApi → Prop} {ids : List String}
    {api : PaperTradeApi}
    (hstep : ∀ e ∈ walkEvaluations feed ids api, P e.api →
      e.api.openOrders.lookup e.id = some e.request →
        ∀ result api', Evaluated e.feed e.id e.request e.api result api' → P api')
    (hP : P api) : P (walk feed ids api).api := by
  induction ids generalizing api with
  | nil => exact hP
  | cons id rest ih =>
    rw [walkEvaluations] at hstep
    cases hlookup : api.openOrders.lookup id with
    | none =>
      rw [walk_cons_stale (Finmap.lookup_eq_none.mp hlookup)]
      rw [hlookup] at hstep
      exact ih hstep hP
    | some request =>
      have hopen : id ∈ api.openOrders := Finmap.mem_of_lookup_eq_some hlookup
      obtain ⟨result, api', heq, hcase⟩ := tryFillOrder_evaluated feed hlookup
      rw [hlookup] at hstep
      have hP' := hstep _ List.mem_cons_self hP hlookup result api' hcase
      rcases result with fault | filled
      · rw [walk_cons_throws hopen heq]
        exact hP'
      · rw [(walk_cons_ok hopen heq).1]
        rw [heq] at hstep
        exact ih (fun e he => hstep e (List.mem_cons_of_mem _ he)) hP'

/-- A property of the account that every evaluation of an open listed order keeps is kept by
the whole walk, also by one that throws. -/
theorem walk_preserves {P : PaperTradeApi → Prop} {ids : List String}
    (hstep : ∀ id ∈ ids, ∀ api request result api', P api → api.openOrders.lookup id = some request →
      Evaluated feed id request api result api' → P api')
    {api : PaperTradeApi} (hP : P api) : P (walk feed ids api).api := by
  apply walk_preserves_of_evaluations _ hP
  intro e he hPe hlookup result api' hcase
  obtain ⟨_, hid, hfeed, _⟩ := of_mem_walkEvaluations (P := fun _ => True)
    (fun _ _ _ _ _ _ _ => trivial) trivial he
  rw [hfeed] at hcase
  exact hstep e.id hid e.api e.request result api' hPe hlookup hcase

/-- The open order under evaluation is closed exactly when the evaluation returns `true`. -/
theorem Evaluated.mem_openOrders {id : String} {request : OrderRequest} {api api' : PaperTradeApi}
    {result : Except Fault Bool} (h : Evaluated feed id request api result api')
    (hopen : id ∈ api.openOrders) : id ∈ api'.openOrders ↔ result ≠ .ok true := by
  cases h with
  | noPrice => simpa using hopen
  | waiting => simpa [noted] using hopen
  | filled fillPrice => simp [PaperTradeApi.filled, Finmap.mem_erase]
  | unpaid => simpa [PaperTradeApi.unpaid] using hopen

/-- An evaluation does not touch the other open orders. -/
theorem Evaluated.lookup_openOrders {id other : String} {request : OrderRequest}
    {api api' : PaperTradeApi} {result : Except Fault Bool}
    (h : Evaluated feed id request api result api') (hne : other ≠ id) :
    api'.openOrders.lookup other = api.openOrders.lookup other :=
  congrArg OrderView.opened (h.view_of_ne hne)

/-- The set of open orders only shrinks. -/
theorem Evaluated.openOrders_subset {id other : String} {request : OrderRequest}
    {api api' : PaperTradeApi} {result : Except Fault Bool}
    (h : Evaluated feed id request api result api') (hmem : other ∈ api'.openOrders) :
    other ∈ api.openOrders := by
  cases h with
  | noPrice | waiting | unpaid => exact hmem
  | filled fillPrice => exact (Finmap.mem_erase.mp hmem).2

/-- An evaluation leaves every id list as it is. -/
theorem Evaluated.orderIds_eq {id : String} {request : OrderRequest} {api api' : PaperTradeApi}
    {result : Except Fault Bool} (h : Evaluated feed id request api result api')
    (pair : TradablePair) : api'.orderIds pair = api.orderIds pair := by
  cases h <;> rfl

/-- The walk changes the views of the orders in its list only. -/
theorem walk_view_of_notMem {ids : List String} {other : String} (hother : other ∉ ids)
    (api : PaperTradeApi) : (walk feed ids api).api.view other = api.view other := by
  apply walk_preserves (P := fun api' => api'.view other = api.view other)
  · intro id hid api₁ request result api₂ hP _ hcase
    have hne : other ≠ id := fun h => hother (h.symm ▸ hid)
    rw [hcase.view_of_ne hne, hP]
  · rfl

/-- The walk leaves the id lists to the handler. -/
theorem walk_orderIds (ids : List String) (pair : TradablePair) (api : PaperTradeApi) :
    (walk feed ids api).api.orderIds pair = api.orderIds pair := by
  apply walk_preserves (P := fun api' => api'.orderIds pair = api.orderIds pair)
  · intro id _ api₁ request result api₂ hP _ hcase
    rw [hcase.orderIds_eq, hP]
  · rfl

/-- Orders outside the walked list keep their entry. -/
theorem walk_lookup_openOrders {ids : List String} {other : String} (hother : other ∉ ids)
    (api : PaperTradeApi) :
    (walk feed ids api).api.openOrders.lookup other = api.openOrders.lookup other :=
  congrArg OrderView.opened (walk_view_of_notMem hother api)

/-- An order that is open after the walk was open before it. -/
theorem walk_openOrders_subset {ids : List String} {other : String} {api : PaperTradeApi}
    (hmem : other ∈ (walk feed ids api).api.openOrders) : other ∈ api.openOrders := by
  revert hmem
  apply walk_preserves (P := fun api' => other ∈ api'.openOrders → other ∈ api.openOrders)
  · intro id _ api₁ request result api₂ hP _ hcase hmem
    exact hP (hcase.openOrders_subset hmem)
  · exact id

/-- The walk only removes ids from the list. -/
theorem walk_left_sublist (ids : List String) (api : PaperTradeApi) :
    (walk feed ids api).left.Sublist ids := by
  induction ids generalizing api with
  | nil => exact List.Sublist.refl _
  | cons id rest ih =>
    by_cases hopen : id ∈ api.openOrders
    · rcases htry : tryFillOrder feed id api with ⟨fault | (_ | _), api'⟩
      · rw [walk_cons_throws hopen htry]
      · rw [walk_cons_waiting hopen htry]
        exact (ih api').cons_cons id
      · rw [walk_cons_filled hopen htry]
        exact (ih api').cons id
    · rw [walk_cons_stale hopen]
      exact (ih api).cons id

/-- An order that is still open after the walk is still listed. -/
theorem mem_walk_left {ids : List String} {id : String} {api : PaperTradeApi} (hid : id ∈ ids)
    (hopen : id ∈ (walk feed ids api).api.openOrders) : id ∈ (walk feed ids api).left := by
  induction ids generalizing api with
  | nil => exact absurd hid List.not_mem_nil
  | cons head rest ih =>
    by_cases hhead : head ∈ api.openOrders
    · obtain ⟨request, hlookup⟩ := Finmap.mem_iff.mp hhead
      obtain ⟨result, api', heq, hcase⟩ := tryFillOrder_evaluated feed hlookup
      rcases result with fault | (_ | _)
      · rw [walk_cons_throws hhead heq]
        exact hid
      · rw [walk_cons_waiting hhead heq] at hopen ⊢
        rcases List.mem_cons.mp hid with rfl | hrest
        · exact List.mem_cons_self
        · exact List.mem_cons_of_mem _ (ih hrest hopen)
      · rw [walk_cons_filled hhead heq] at hopen ⊢
        have hne : id ≠ head := by
          rintro rfl
          exact (hcase.mem_openOrders hhead).mp (walk_openOrders_subset hopen) rfl
        exact ih ((List.mem_cons.mp hid).resolve_left hne) hopen
    · rw [walk_cons_stale hhead] at hopen ⊢
      have hne : id ≠ head := by
        rintro rfl
        exact hhead (walk_openOrders_subset hopen)
      exact ih ((List.mem_cons.mp hid).resolve_left hne) hopen

/-- A walk that does not return ends with the exception for missing funds. -/
theorem walk_result_error {ids : List String} {api : PaperTradeApi} {fault : Fault}
    (herror : (walk feed ids api).result = .error fault) :
    ∃ asset, fault = .insufficientFunds asset := by
  induction ids generalizing api with
  | nil => cases herror
  | cons id rest ih =>
    by_cases hopen : id ∈ api.openOrders
    · obtain ⟨request, hlookup⟩ := Finmap.mem_iff.mp hopen
      obtain ⟨result, api', heq, hcase⟩ := tryFillOrder_evaluated feed hlookup
      rcases result with fault' | filled
      · rw [walk_cons_throws hopen heq] at herror
        cases herror
        cases hcase with
        | unpaid fillPrice => exact ⟨_, rfl⟩
      · rw [(walk_cons_ok hopen heq).2] at herror
        exact ih herror
    · rw [walk_cons_stale hopen] at herror
      exact ih herror

/-- A walk that returns evaluates every open order of the list once, in the order of the
list, and leaves exactly the orders that are still open. -/
theorem walk_of_ok {ids : List String} {api : PaperTradeApi} (hnodup : ids.Nodup)
    (hok : (walk feed ids api).result = .ok ()) :
    (walk feed ids api).evaluated = ids.filter (· ∈ api.openOrders) ∧
      (walk feed ids api).left = ids.filter (· ∈ (walk feed ids api).api.openOrders) := by
  induction ids generalizing api with
  | nil => exact ⟨rfl, rfl⟩
  | cons id rest ih =>
    obtain ⟨hid, hrest⟩ := List.nodup_cons.mp hnodup
    have hkeep (api' : PaperTradeApi) :
        id ∈ (walk feed rest api').api.openOrders ↔ id ∈ api'.openOrders := by
      rw [← Finmap.lookup_isSome, ← Finmap.lookup_isSome, walk_lookup_openOrders hid]
    by_cases hopen : id ∈ api.openOrders
    · obtain ⟨request, hlookup⟩ := Finmap.mem_iff.mp hopen
      obtain ⟨result, api', heq, hcase⟩ := tryFillOrder_evaluated feed hlookup
      have hsame : rest.filter (· ∈ api'.openOrders) = rest.filter (· ∈ api.openOrders) := by
        apply List.filter_congr
        intro other hother
        have hne : other ≠ id := fun h => hid (h ▸ hother)
        simp only [← Finmap.lookup_isSome, hcase.lookup_openOrders hne]
      have hclosed := hcase.mem_openOrders hopen
      rcases result with fault | (_ | _)
      · rw [walk_cons_throws hopen heq] at hok
        cases hok
      · rw [walk_cons_waiting hopen heq] at hok ⊢
        obtain ⟨hevaluated, hleft⟩ := ih hrest hok
        have hstill : id ∈ (walk feed rest api').api.openOrders := (hkeep api').mpr (hclosed.mpr (by simp))
        exact ⟨by simp [hevaluated, hsame, hopen], by simp [← hleft, hstill]⟩
      · rw [walk_cons_filled hopen heq] at hok ⊢
        obtain ⟨hevaluated, hleft⟩ := ih hrest hok
        have hgone : id ∉ (walk feed rest api').api.openOrders :=
          fun h => hclosed.mp ((hkeep api').mp h) rfl
        exact ⟨by simp [hevaluated, hsame, hopen], by simp [← hleft, hgone]⟩
    · have hgone : id ∉ (walk feed rest api).api.openOrders := fun h => hopen ((hkeep api).mp h)
      rw [walk_cons_stale hopen] at hok ⊢
      obtain ⟨hevaluated, hleft⟩ := ih hrest hok
      exact ⟨by simp [hevaluated, hopen], by simp [← hleft, hgone]⟩

/-! ## Several updates -/

/-- Trade updates handled one after the other, up to the first that throws. -/
def handleUpdates (feed : Feed) : List TradablePair → PaperTradeApi → Except Fault Unit × PaperTradeApi
  | [], api => (.ok (), api)
  | pair :: rest, api =>
    match tradeUpdateHandler feed pair api with
    | (.error fault, api) => (.error fault, api)
    | (.ok (), api) => handleUpdates feed rest api

/-- The updates of distinct pairs are one walk over all their orders, the id lists aside. -/
theorem handleUpdates_eq_walk (feed : Feed) {pairs : List TradablePair} (hpairs : pairs.Nodup)
    (api : PaperTradeApi) :
    ∃ lists, handleUpdates feed pairs api =
      ((walk feed (pairs.flatMap api.orderIds) api).result,
        { (walk feed (pairs.flatMap api.orderIds) api).api with openOrdersByPair := lists }) := by
  induction pairs generalizing api with
  | nil => exact ⟨api.openOrdersByPair, rfl⟩
  | cons pair rest ih =>
    obtain ⟨hfirst, hrest⟩ := List.nodup_cons.mp hpairs
    have hsplit := walk_append feed (api.orderIds pair) (rest.flatMap api.orderIds) api
    rw [handleUpdates, tradeUpdateHandler_eq, List.flatMap_cons]
    cases hresult : (walk feed (api.orderIds pair) api).result with
    | error fault =>
      simp only [hresult, Prod.mk.injEq] at hsplit
      rw [hsplit.1, hsplit.2]
      exact ⟨_, rfl⟩
    | ok value =>
      simp only [hresult, Prod.mk.injEq] at hsplit
      obtain ⟨lists, hhandled⟩ := ih hrest ((walk feed (api.orderIds pair) api).api.setOrderIds pair
        (walk feed (api.orderIds pair) api).left)
      have hlists : rest.flatMap ((walk feed (api.orderIds pair) api).api.setOrderIds pair
          (walk feed (api.orderIds pair) api).left).orderIds = rest.flatMap api.orderIds := by
        refine List.flatMap_congr fun other hother => ?_
        have hne : other ≠ pair := fun heq => hfirst (heq ▸ hother)
        rw [orderIds_setOrderIds, if_neg hne, walk_orderIds]
      rw [hlists, walk_setOrderIds] at hhandled
      rw [hsplit.1, hsplit.2]
      exact ⟨lists, hhandled⟩

end PaperTradeApi

end MarketBlocks
