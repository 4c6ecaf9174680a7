import MarketBlocks.PaperTrading.Ledger
import MarketBlocks.PaperTrading.Matching
import Mathlib.Data.List.Permutation

/-!
# The order of the updates in a tick

`notify` walks an unordered set, so the trade updates of a tick come in any order. Which orders
trigger does not depend on it: each of them is evaluated once, at a price that the tick does not
change and against a limit of its own. The updates of the balances add modulo `2⁶⁴` and so have no
order either. What is left is whether a fill is covered at its turn, and it is when the balances
at the start of the tick cover everything that is sold in it.
-/

namespace MarketBlocks

open Library

/-! ## Fills commute -/

/-- Whether a fill writes the balance of an asset. -/
def Fill.Moves (fill : Fill) (asset : String) : Prop :=
  asset = fill.soldAsset ∨ asset = fill.gainedAsset

instance (fill : Fill) (asset : String) : Decidable (fill.Moves asset) :=
  inferInstanceAs (Decidable (_ ∨ _))

/-- What a fill adds to the balance of an asset, modulo `volumeModulus`. -/
def Fill.moved (fill : Fill) (asset : String) : ℕ :=
  (if asset = fill.gainedAsset then toIntegerVolume fill.gainValue else 0) +
    if asset = fill.soldAsset then volumeModulus - toIntegerVolume fill.soldValue else 0

/-- The account of an asset after a fill. -/
theorem Fill.lookup_applyTo (fill : Fill) (balances : UnorderedMap String ℕ) (asset : String) :
    Finmap.lookup asset (fill.applyTo balances) =
      if fill.Moves asset then
        some ((balances.findOrDefault asset + fill.moved asset) % volumeModulus)
      else balances.lookup asset := by
  have hsold := toIntegerVolume_lt fill.soldValue
  rw [Fill.applyTo, Fill.sell, UnorderedMap.lookup_insert_eq, Fill.gain,
    UnorderedMap.lookup_insert_eq, UnorderedMap.findOrDefault_insert]
  unfold Fill.Moves Fill.moved
  by_cases hsame : asset = fill.soldAsset
  · subst hsame
    by_cases hgain : fill.soldAsset = fill.gainedAsset
    · simp only [hgain, if_true, true_or]
      rw [Nat.add_sub_assoc hsold.le, Nat.mod_add_mod, Nat.add_assoc]
    · simp only [if_neg hgain, if_true, true_or, Nat.zero_add]
      rw [Nat.add_sub_assoc hsold.le]
  · by_cases hgain : asset = fill.gainedAsset
    · simp [hsame, ← hgain]
    · simp [hsame, hgain]

/-- The balance of an asset after a fill. -/
theorem Fill.findOrDefault_applyTo (fill : Fill) (balances : UnorderedMap String ℕ)
    (asset : String) :
    UnorderedMap.findOrDefault (fill.applyTo balances) asset =
      if fill.Moves asset then (balances.findOrDefault asset + fill.moved asset) % volumeModulus
      else balances.findOrDefault asset := by
  rw [UnorderedMap.findOrDefault, Fill.lookup_applyTo]
  split <;> rfl

/-- Two fills can be applied in either order, also when they wrap. -/
theorem Fill.applyTo_comm (balances : UnorderedMap String ℕ) (fill other : Fill) :
    other.applyTo (fill.applyTo balances) = fill.applyTo (other.applyTo balances) := by
  apply Finmap.ext_lookup
  intro asset
  simp only [Fill.lookup_applyTo, Fill.findOrDefault_applyTo]
  by_cases hfill : fill.Moves asset
  · by_cases hother : other.Moves asset
    · simp only [if_pos hfill, if_pos hother, Nat.mod_add_mod, Nat.add_right_comm]
    · simp only [if_pos hfill, if_neg hother]
  · simp only [if_neg hfill]

/-- The balances after some fills. -/
def applyFills (fills : List Fill) (balances : UnorderedMap String ℕ) : UnorderedMap String ℕ :=
  fills.foldl (fun balances fill => fill.applyTo balances) balances

/-- The balances do not depend on the order of the fills. -/
theorem applyFills_perm {fills fills' : List Fill} (hperm : fills.Perm fills')
    (balances : UnorderedMap String ℕ) : applyFills fills balances = applyFills fills' balances :=
  hperm.foldl_eq' (fun fill _ other _ balances => Fill.applyTo_comm balances fill other) balances

/-! ## Sufficient funds -/

/-- What the fills sell of an asset. -/
def volumeSold (fills : List Fill) (asset : String) : ℕ :=
  ((fills.filter (·.soldAsset = asset)).map fun fill => toIntegerVolume fill.soldValue).sum

/-- Every asset that is sold has an account that holds all that is sold of it. -/
def Funded (balances : UnorderedMap String ℕ) (fills : List Fill) : Prop :=
  ∀ fill ∈ fills, fill.soldAsset ∈ balances ∧
    volumeSold fills fill.soldAsset ≤ balances.findOrDefault fill.soldAsset

/-- Every balance that results from a gain is below `2 ^ 64`, in the order of the fills. -/
def GainsFit (balances : UnorderedMap String ℕ) (fills : List Fill) : Prop :=
  EveryStep (fun balances fill => fill.applyTo balances)
    (fun balances fill => balances.findOrDefault fill.gainedAsset +
      toIntegerVolume fill.gainValue < volumeModulus) balances fills

instance (balances : UnorderedMap String ℕ) (fills : List Fill) : Decidable (Funded balances fills) :=
  inferInstanceAs (Decidable (∀ fill ∈ fills, _ ∧ _))

instance (balances : UnorderedMap String ℕ) (fills : List Fill) :
    Decidable (GainsFit balances fills) :=
  inferInstanceAs (Decidable (EveryStep _ _ _ _))

section Funded

variable {balances : UnorderedMap String ℕ} {fill : Fill} {fills : List Fill}

/-- Another fill sells its own asset. -/
theorem volumeSold_cons (fill : Fill) (fills : List Fill) (asset : String) :
    volumeSold (fill :: fills) asset =
      (if asset = fill.soldAsset then toIntegerVolume fill.soldValue else 0) +
        volumeSold fills asset := by
  unfold volumeSold
  by_cases hsame : fill.soldAsset = asset
  · simp [hsame]
  · simp [hsame, Ne.symm hsame]

/-- What is sold does not depend on the order of the fills. -/
theorem volumeSold_perm {fills' : List Fill} (hperm : fills.Perm fills') (asset : String) :
    volumeSold fills asset = volumeSold fills' asset :=
  ((hperm.filter _).map _).sum_eq

/-- Whether the funds suffice does not depend on the order of the fills. -/
theorem Funded.perm {fills' : List Fill} (h : Funded balances fills) (hperm : fills.Perm fills') :
    Funded balances fills' := by
  intro fill hmem
  rw [← volumeSold_perm hperm]
  exact h fill (hperm.mem_iff.mpr hmem)

/-- Funds for all fills cover the first. -/
theorem Funded.head (h : Funded balances (fill :: fills)) :
    fill.soldAsset ∈ balances ∧
      toIntegerVolume fill.soldValue ≤ balances.findOrDefault fill.soldAsset := by
  obtain ⟨haccount, hfunds⟩ := h fill List.mem_cons_self
  rw [volumeSold_cons, if_pos rfl] at hfunds
  exact ⟨haccount, (Nat.le_add_right _ _).trans hfunds⟩

/-- After the first fill there are funds for the others. -/
theorem Funded.tail (h : Funded balances (fill :: fills))
    (hbounded : ∀ asset, balances.findOrDefault asset < volumeModulus)
    (hfit : GainsFit balances (fill :: fills)) : Funded (fill.applyTo balances) fills := by
  intro other hmem
  obtain ⟨haccount, hfunds⟩ := h other (List.mem_cons_of_mem _ hmem)
  refine ⟨Finmap.mem_insert.mpr (.inr (Finmap.mem_insert.mpr (.inr haccount))), ?_⟩
  have hexact := Fill.applyTo_balance hbounded hfit.1 h.head.2 other.soldAsset
  rw [volumeSold_cons] at hfunds
  split at hexact <;> split at hexact <;> split at hfunds <;> first | contradiction | omega

end Funded

namespace PaperTradeApi

/-! ## The fills of a tick -/

/-- What an order would exchange if it were evaluated now, and nothing when it would wait. -/
def dueFill (feed : Feed) (api : PaperTradeApi) (id : String) : Option Fill :=
  (api.openOrders.lookup id).bind fun request =>
    (api.trigger feed id request).map (fillOf api.fee request)

/-- What the orders of a list would exchange. -/
def dueFills (feed : Feed) (ids : List String) (api : PaperTradeApi) : List Fill :=
  ids.filterMap (api.dueFill feed)

variable {feed : Feed} {ids : List String} {id : String} {request : OrderRequest}
  {api api' : PaperTradeApi}

/-- The evaluation of one order does not change what the others would exchange. -/
theorem Evaluated.dueFills_eq {result : Except Fault Bool}
    (hcase : Evaluated feed id request api result api') (hid : id ∉ ids) :
    dueFills feed ids api' = dueFills feed ids api := by
  have hfee : api'.fee = api.fee := by cases hcase <;> rfl
  refine List.filterMap_congr fun other hother => ?_
  have hne : other ≠ id := fun heq => hid (heq ▸ hother)
  have htrigger (r : OrderRequest) : api'.trigger feed other r = api.trigger feed other r :=
    trigger_congr (hcase.view_of_ne hne)
  simp only [dueFill, hcase.lookup_openOrders hne, htrigger, hfee]

/-- Funds that hold the amount cover it. -/
theorem hasSufficientFunds_of_le {asset : String} {amount : ℕ} (haccount : asset ∈ api.balances)
    (hfunds : amount ≤ api.balances.findOrDefault asset) :
    api.hasSufficientFunds asset amount = true := by
  obtain ⟨balance, hlookup⟩ := Finmap.mem_iff.mp haccount
  simpa [hasSufficientFunds, hlookup, UnorderedMap.findOrDefault] using hfunds

/-- A walk whose fills are all funded at its start returns and applies them all. -/
theorem walk_of_funded (hnodup : ids.Nodup)
    (hbounded : ∀ asset, api.balance asset < volumeModulus)
    (hfunded : Funded api.balances (dueFills feed ids api))
    (hfit : GainsFit api.balances (dueFills feed ids api)) :
    (walk feed ids api).result = .ok () ∧
      (walk feed ids api).api.balances = applyFills (dueFills feed ids api) api.balances := by
  induction ids generalizing api with
  | nil => exact ⟨rfl, rfl⟩
  | cons id rest ih =>
    obtain ⟨hid, hrest⟩ := List.nodup_cons.mp hnodup
    by_cases hopen : id ∈ api.openOrders
    · obtain ⟨request, hlookup⟩ := Finmap.mem_iff.mp hopen
      obtain ⟨result, api', heq, hcase⟩ := tryFillOrder_evaluated feed hlookup
      have hlater := hcase.dueFills_eq hid
      -- an order that waits is passed over
      have hwaits (hnone : api.trigger feed id request = none) :
          dueFills feed (id :: rest) api = dueFills feed rest api :=
        List.filterMap_cons_none (by simp [dueFill, hlookup, hnone])
      have hfills {fillPrice : ℚ} (hsome : api.trigger feed id request = some fillPrice) :
          dueFills feed (id :: rest) api =
            fillOf api.fee request fillPrice :: dueFills feed rest api :=
        List.filterMap_cons_some (by simp [dueFill, hlookup, hsome])
      cases hcase with
      | noPrice hprice =>
        rw [hwaits (by simp [trigger, hprice])] at hfunded hfit ⊢
        rw [(walk_cons_ok hopen heq).1, (walk_cons_ok hopen heq).2]
        exact ih hrest hbounded hfunded hfit
      | waiting hprice htrigger =>
        rw [hwaits htrigger] at hfunded hfit ⊢
        rw [(walk_cons_ok hopen heq).1, (walk_cons_ok hopen heq).2, ← hlater]
        exact ih hrest hbounded (hlater.symm ▸ hfunded) (hlater.symm ▸ hfit)
      | filled fillPrice htrigger hcovers =>
        rw [hfills htrigger] at hfunded hfit ⊢
        rw [(walk_cons_ok hopen heq).1, (walk_cons_ok hopen heq).2, ← hlater]
        exact ih hrest (Fill.applyTo_lt hbounded) (hlater.symm ▸ hfunded.tail hbounded hfit)
          (hlater.symm ▸ hfit.2)
      | unpaid fillPrice htrigger hcovers =>
        rw [hfills htrigger] at hfunded
        obtain ⟨haccount, hfunds⟩ := hfunded.head
        have hpaid : api.covers request fillPrice = true := hasSufficientFunds_of_le haccount hfunds
        rw [hpaid] at hcovers
        cases hcovers
    · have hwaits : dueFills feed (id :: rest) api = dueFills feed rest api :=
        List.filterMap_cons_none (by simp [dueFill, Finmap.lookup_eq_none.mpr hopen])
      rw [hwaits] at hfunded hfit ⊢
      rw [walk_cons_stale hopen]
      exact ih hrest hbounded hfunded hfit

/-! ## The orders after a tick -/

/-- An order of a pair without a last trade is not touched by a walk. -/
theorem walk_view_of_no_price (hopened : (api.view id).opened = some request)
    (hprice : feed.price request.pair = 0) (ids : List String) :
    (walk feed ids api).api.view id = api.view id := by
  apply walk_preserves (P := fun api' => api'.view id = api.view id)
  · intro other _ api₁ r result api₂ hP hlookup hcase
    by_cases hne : id = other
    · subst hne
      have hsame : r = request := by
        have hopened' := congrArg OrderView.opened hP
        rw [hopened] at hopened'
        exact Option.some.inj (hlookup.symm.trans hopened')
      subst hsame
      cases hcase with
      | noPrice => exact hP
      | waiting hsome => exact absurd hprice hsome
      | filled fillPrice htrigger | unpaid fillPrice htrigger => simp [trigger, hprice] at htrigger
    · exact (hcase.view_of_ne hne).trans hP
  · rfl

/-- An order that is open after a walk was open before it, with the same request. -/
theorem walk_lookup_of_some (hopen : (walk feed ids api).api.openOrders.lookup id = some request) :
    api.openOrders.lookup id = some request := by
  revert hopen
  apply walk_preserves (P := fun api' => api'.openOrders.lookup id = some request →
    api.openOrders.lookup id = some request)
  · intro other _ api₁ r result api₂ hP _ hcase hopen
    exact hP (hcase.lookup_openOrders_of_some hopen)
  · exact fun hopen => hopen

/-- An order that still waits after an evaluation would wait at the same price again. -/
theorem OrderView.next_waits {v : OrderView} {price : ℚ} {time : ℤ}
    (hwaits : (v.next id request price time).opened ≠ none) :
    triggerPrice request (v.next id request price time).limit price = none := by
  unfold OrderView.next at hwaits ⊢
  cases htrigger : triggerPrice request v.limit price with
  | some fillPrice =>
    rw [htrigger] at hwaits
    exact absurd rfl hwaits
  | none =>
    simp only
    split
    · rw [triggerPrice_trailingLimit, htrigger]
    · exact htrigger

/-- After a walk that returns, no order of its list triggers at the prices of the walk. -/
theorem walk_settles (hnodup : ids.Nodup) (hok : (walk feed ids api).result = .ok ())
    (hid : id ∈ ids) (hopen : (walk feed ids api).api.openOrders.lookup id = some request) :
    (walk feed ids api).api.trigger feed id request = none := by
  have hopened : (api.view id).opened = some request := walk_lookup_of_some hopen
  by_cases hprice : feed.price request.pair = 0
  · rw [trigger, if_pos hprice]
  · have hview := walk_view_of_mem hnodup hid hopened hprice hok
    have hwaits : ((walk feed ids api).api.view id).opened ≠ none := by
      rw [show ((walk feed ids api).api.view id).opened = some request from hopen]
      exact Option.some_ne_none request
    have hlimit : (walk feed ids api).api.trailingOrderLimits.lookup id =
        ((api.view id).next id request (feed.price request.pair) feed.time).limit :=
      congrArg OrderView.limit hview
    rw [hview] at hwaits
    rw [trigger, if_neg hprice, hlimit]
    exact OrderView.next_waits hwaits

/-- Two walks over the same orders that both return do the same to each order. -/
theorem walk_view_perm {ids' : List String} (hperm : ids.Perm ids') (hnodup : ids.Nodup)
    (hok : (walk feed ids api).result = .ok ()) (hok' : (walk feed ids' api).result = .ok ())
    (id : String) : (walk feed ids api).api.view id = (walk feed ids' api).api.view id := by
  by_cases hid : id ∈ ids
  · have hid' := hperm.mem_iff.mp hid
    cases hopened : (api.view id).opened with
    | none =>
      have hstale := Finmap.lookup_eq_none.mp hopened
      rw [walk_view_of_stale hstale, walk_view_of_stale hstale]
    | some request =>
      by_cases hprice : feed.price request.pair = 0
      · rw [walk_view_of_no_price hopened hprice, walk_view_of_no_price hopened hprice]
      · rw [walk_view_of_mem hnodup hid hopened hprice hok,
          walk_view_of_mem (hperm.nodup_iff.mp hnodup) hid' hopened hprice hok']
  · have hid' := fun hmem => hid (hperm.mem_iff.mpr hmem)
    rw [walk_view_of_notMem hid, walk_view_of_notMem hid']

/-- Two lists with the same elements of every key are permutations of each other. -/
private theorem perm_of_filter_key_eq {α κ : Type} [DecidableEq α] [DecidableEq κ] (key : α → κ)
    {xs ys : List α}
    (hkeys : ∀ k, xs.filter (fun x => key x = k) = ys.filter (fun y => key y = k)) : xs.Perm ys := by
  refine List.perm_iff_count.mpr fun x => ?_
  have hcount (zs : List α) : (zs.filter fun z => key z = key x).count x = zs.count x :=
    List.count_filter (by simp)
  rw [← hcount xs, ← hcount ys, hkeys]

/-- Two accounts with the same funds and the same orders, apart from the order in which orders
were closed. -/
structure SameUpToClosing (api api' : PaperTradeApi) : Prop where
  balances : api'.balances = api.balances
  openOrders : api'.openOrders = api.openOrders
  limits : api'.trailingOrderLimits = api.trailingOrderLimits
  closed : api'.closedOrders.Perm api.closedOrders

/-- Accounts that know the same about every order differ in the order of the closed ones only. -/
theorem SameUpToClosing.of_view (hbalances : api'.balances = api.balances)
    (hview : ∀ id, api'.view id = api.view id) : SameUpToClosing api api' where
  balances := hbalances
  openOrders := Finmap.ext_lookup fun id => congrArg OrderView.opened (hview id)
  limits := Finmap.ext_lookup fun id => congrArg OrderView.limit (hview id)
  closed := perm_of_filter_key_eq OrderDescription.orderId fun id => congrArg OrderView.closed (hview id)

/-- What the orders of some pairs exchange in a tick, in the order of the updates. -/
def tickFills (feed : Feed) (pairs : List TradablePair) (api : PaperTradeApi) : List Fill :=
  dueFills feed (pairs.flatMap api.orderIds) api

/-- The fills of a tick are the same in every order of the updates. -/
theorem tickFills_perm {pairs pairs' : List TradablePair} (hperm : pairs.Perm pairs') :
    (tickFills feed pairs api).Perm (tickFills feed pairs' api) :=
  (hperm.flatMap_right _).filterMap _

/-- An order that is open after some updates was open before them, with the same request. -/
theorem handleUpdates_lookup_of_some {pairs : List TradablePair} (hpairs : pairs.Nodup)
    (hopen : (handleUpdates feed pairs api).2.openOrders.lookup id = some request) :
    api.openOrders.lookup id = some request := by
  obtain ⟨lists, hhandled⟩ := handleUpdates_eq_walk feed hpairs api
  rw [hhandled] at hopen
  exact walk_lookup_of_some hopen

end PaperTradeApi

open PaperTradeApi

/-- After updates that return, no open order of their pairs triggers at the prices of the tick. -/
theorem Session.WellFormed.handleUpdates_settles {s : Session} (h : s.WellFormed) {feed : Feed}
    {pairs : List TradablePair} (hpairs : pairs.Nodup)
    (hok : (PaperTradeApi.handleUpdates feed pairs s.api).1 = .ok ()) {id : String}
    {request : OrderRequest} (hpair : request.pair ∈ pairs)
    (hopen : (PaperTradeApi.handleUpdates feed pairs s.api).2.openOrders.lookup id = some request) :
    (PaperTradeApi.handleUpdates feed pairs s.api).2.trigger feed id request = none := by
  obtain ⟨lists, hhandled⟩ := handleUpdates_eq_walk feed hpairs s.api
  have hlisted : id ∈ pairs.flatMap s.api.orderIds :=
    List.mem_flatMap.mpr ⟨request.pair, hpair,
      h.listed id request (handleUpdates_lookup_of_some hpairs hopen)⟩
  rw [hhandled] at hok hopen ⊢
  exact walk_settles (h.nodup_flatMap_orderIds hpairs) hok hlisted hopen

/-- A tick at whose start the account holds all that is sold in it throws nothing and has the same
outcome in every order of its updates. -/
theorem Session.run_handleUpdates_perm (config : PaperTradingConfig) (inputs : List (Feed × Call))
    (feed : Feed) (pairs : List TradablePair) (hpairs : pairs.Nodup)
    (hfunded : Funded (Session.run config inputs).api.balances
      (tickFills feed pairs (Session.run config inputs).api))
    (hfit : ∀ order : List TradablePair, order.Perm pairs →
      GainsFit (Session.run config inputs).api.balances
        (tickFills feed order (Session.run config inputs).api)) :
    ∀ order : List TradablePair, order.Perm pairs →
      (handleUpdates feed order (Session.run config inputs).api).1 = .ok () ∧
      SameUpToClosing (handleUpdates feed pairs (Session.run config inputs).api).2
        (handleUpdates feed order (Session.run config inputs).api).2 := by
  have hwell := WellFormed.run config inputs
  have hbounded := run_balance_lt config inputs
  -- every order of the updates is one walk that returns
  have hwalk : ∀ order : List TradablePair, order.Perm pairs →
      (walk feed (order.flatMap (Session.run config inputs).api.orderIds)
        (Session.run config inputs).api).result = .ok () ∧
      (walk feed (order.flatMap (Session.run config inputs).api.orderIds)
        (Session.run config inputs).api).api.balances =
          applyFills (tickFills feed order (Session.run config inputs).api)
            (Session.run config inputs).api.balances := fun order hperm =>
    walk_of_funded (hwell.nodup_flatMap_orderIds (hperm.nodup_iff.mpr hpairs)) hbounded
      (hfunded.perm (tickFills_perm hperm.symm)) (hfit order hperm)
  intro order hperm
  obtain ⟨hok, hbalances⟩ := hwalk order hperm
  obtain ⟨hok', hbalances'⟩ := hwalk pairs (List.Perm.refl pairs)
  obtain ⟨lists, hhandled⟩ :=
    handleUpdates_eq_walk feed (hperm.nodup_iff.mpr hpairs) (Session.run config inputs).api
  obtain ⟨lists', hhandled'⟩ := handleUpdates_eq_walk feed hpairs (Session.run config inputs).api
  have hsame := SameUpToClosing.of_view
    (hbalances.trans ((applyFills_perm (tickFills_perm hperm) _).trans hbalances'.symm))
    (walk_view_perm (hperm.flatMap_right _)
      (hwell.nodup_flatMap_orderIds (hperm.nodup_iff.mpr hpairs)) hok hok')
  rw [hhandled, hhandled']
  exact ⟨hok, hsame.balances, hsame.openOrders, hsame.limits, hsame.closed⟩

/-- One update buys the asset that the other one sells, and both orders trigger at 10. -/
theorem Session.run_handleUpdates_perm_shared :
    let bitcoin : TradablePair := ⟨"BTC", "GBP"⟩
    let ether : TradablePair := ⟨"ETH", "BTC"⟩
    let api := (Session.run ⟨0, [("GBP", 1000), ("BTC", 40)]⟩
      [(Feed.quote 20, .addOrder (createLimitOrder bitcoin .buy 15 5)),
        (Feed.quote 20, .addOrder (createLimitOrder ether .buy 15 2))]).api
    (handleUpdates (Feed.quote 10) [ether, bitcoin] api).1 = .ok () ∧
      SameUpToClosing (handleUpdates (Feed.quote 10) [bitcoin, ether] api).2
        (handleUpdates (Feed.quote 10) [ether, bitcoin] api).2 := by
  intro bitcoin ether api
  refine Session.run_handleUpdates_perm _ _ _ [bitcoin, ether] (by decide +kernel)
    (by decide +kernel) ?_ _ (List.Perm.swap _ _ _)
  have hfit : ∀ order ∈ [bitcoin, ether].permutations',
      GainsFit api.balances (tickFills (Feed.quote 10) order api) := by decide +kernel
  exact fun order hperm => hfit order (List.mem_permutations'.mpr hperm)

end MarketBlocks
