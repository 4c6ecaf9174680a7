import MarketBlocks.PaperTrading.Precision

/-!
# Trading at a constant price

Market orders exchange one asset of a pair for the other at its price, so apart from the fee they
leave the equity as it is. Both amounts of a fill are truncated, though, and truncating the one that
is sold is worth up to one unit of it to the trader. A fee that comes to less than that does not make
up for it.
-/

namespace MarketBlocks

open Library

namespace PaperTradeApi

/-- The worth of the balances of a pair, in its price unit. -/
def equity (api : PaperTradeApi) (pair : TradablePair) (price : ℚ) : ℚ :=
  api.reportedBalance pair.priceUnit + price * api.reportedBalance pair.asset

end PaperTradeApi

/-- A market order on a pair. -/
structure OrderRequest.MarketOn (request : OrderRequest) (pair : TradablePair) : Prop where
  orderType : request.orderType = .market
  pair : request.pair = pair
  volume : 0 < request.get .volume

/-- A call while the last trade of a pair has a certain price, for which all orders are market
orders on that pair. -/
structure AtConstantPrice (pair : TradablePair) (price : ℚ) (input : Feed × Call) : Prop where
  price : input.1.price pair = price
  request : ∀ request, input.2.request? = some request → request.MarketOn pair

/-- The worth of one unit of what an order sells. -/
def unitSold (price : ℚ) (request : OrderRequest) : ℚ :=
  match request.action with
  | .buy => 1 / volumeModifier
  | .sell => price / volumeModifier

/-- The fee of an order. -/
def feeValue (fee price : ℚ) (request : OrderRequest) : ℚ :=
  price * request.get .volume * (fee / 100)

/-- All amounts of an execution are within the range of a balance. -/
def Evaluation.Representable (e : Evaluation) : Prop :=
  e.InRange ∧ ∀ fill, e.fill = some fill → 0 ≤ fill.gainValue

section Floor

variable {price volume rate : ℚ}

/-- A purchase of the truncated volume for the truncated cost gains less than one unit. -/
theorem mul_floor_sub_floor_lt (hprice : 0 < price) :
    price * ⌊volume⌋ - ⌊price * volume * (1 + rate)⌋ < 1 - price * volume * rate := by
  have hfloor := Int.lt_floor_add_one (price * volume * (1 + rate))
  have hvolume := mul_le_mul_of_nonneg_left (Int.floor_le volume) hprice.le
  linarith

/-- A sale of the truncated volume for the truncated cost gains less than the price of one unit. -/
theorem floor_sub_mul_floor_lt (hprice : 0 < price) :
    ⌊price * volume * (1 - rate)⌋ - price * ⌊volume⌋ < price - price * volume * rate := by
  have hfloor := Int.floor_le (price * volume * (1 - rate))
  have hvolume := mul_lt_mul_of_pos_left (Int.lt_floor_add_one volume) hprice
  linarith

end Floor

namespace PaperTradeApi

variable {api : PaperTradeApi} {request : OrderRequest} {pair : TradablePair} {price : ℚ}

/-- What a fill adds to the equity. -/
theorem equity_filled (feed : Feed) (id : String) (hpair : pair.asset ≠ pair.priceUnit)
    (hrequest : request.pair = pair) (hbounded : ∀ asset, api.balance asset < volumeModulus)
    (hroom : api.balance (fillOf api.fee request price).gainedAsset +
      toIntegerVolume (fillOf api.fee request price).gainValue < volumeModulus)
    (hcovers : api.covers request price = true) :
    (api.filled feed id request price).equity pair price = api.equity pair price +
      match request.action with
      | .buy => (price * toIntegerVolume (request.get .volume) -
          toIntegerVolume (costWithFee api.fee (request, price))) / volumeModifier
      | .sell => (toIntegerVolume (costWithFee api.fee (request, price)) -
          price * toIntegerVolume (request.get .volume)) / volumeModifier := by
  have hbalance := Fill.applyTo_balance hbounded hroom (covers_balance hcovers)
  change ∀ asset, ((api.filled feed id request price).balance asset : ℤ) = api.balance asset + _
    at hbalance
  have hasset := congrArg (Int.cast : ℤ → ℚ) (hbalance pair.asset)
  have hunit := congrArg (Int.cast : ℤ → ℚ) (hbalance pair.priceUnit)
  simp only [equity, reportedBalance_eq]
  cases haction : request.action with
  | buy =>
    simp only [fillOf_buy haction, hrequest, if_neg hpair, if_neg hpair.symm, if_true] at hasset hunit
    push_cast at hasset hunit
    rw [hasset, hunit]
    ring
  | sell =>
    simp only [fillOf_sell haction, hrequest, if_neg hpair, if_neg hpair.symm, if_true] at hasset hunit
    push_cast at hasset hunit
    rw [hasset, hunit]
    ring

end PaperTradeApi

namespace Evaluation

variable {e : Evaluation} {pair : TradablePair} {price : ℚ}

/-- A market order is handed to `execute_order` at the last trade. -/
theorem executionPrice_of_market (hrequest : e.request.MarketOn pair) (hfeed : e.feed.price pair = price)
    (hprice : 0 < price) : e.executionPrice = some price := by
  have hlast : e.feed.price e.request.pair = price := hrequest.pair ▸ hfeed
  rw [executionPrice, PaperTradeApi.trigger, hlast, if_neg hprice.ne', triggerPrice, hrequest.orderType]

/-- A filled market order adds less to the equity than one unit of what it sells is worth. -/
theorem equity_filled_lt (hpair : pair.asset ≠ pair.priceUnit) (hprice : 0 < price)
    (hfee : 0 ≤ e.api.fee) (hrequest : e.request.MarketOn pair) (hfeed : e.feed.price pair = price)
    (hrange : e.Representable) (hbounded : ∀ asset, e.api.balance asset < volumeModulus)
    (hcovers : e.api.covers e.request price = true) :
    (e.api.filled e.feed e.id e.request price).equity pair price <
      e.api.equity pair price + (unitSold price e.request - feeValue e.api.fee price e.request) := by
  have hfill : e.fill = some (fillOf e.api.fee e.request price) :=
    congrArg (Option.map _) (executionPrice_of_market hrequest hfeed hprice)
  obtain ⟨hgain, hsold, hroom⟩ := hrange.1 _ hfill
  have hnonneg := hrange.2 _ hfill
  have hvolume := hrequest.volume
  rw [PaperTradeApi.equity_filled e.feed e.id hpair hrequest.pair hbounded (hroom hcovers) hcovers]
  have hfloor {value : ℚ} (hnonneg : 0 ≤ value) (hlt : value < volumeCapacity) :
      (toIntegerVolume value : ℚ) = ⌊value * 10 ^ 10⌋ := by
    rw [← toIntegerVolume_eq_floor hnonneg (lt_volumeCapacity_iff.mp hlt)]
    rfl
  apply add_lt_add_right
  cases haction : e.request.action with
  | buy =>
    rw [fillOf_buy haction] at hgain hsold
    have hcost : costWithFee e.api.fee (e.request, price) * 10 ^ 10 =
        price * (e.request.get .volume * 10 ^ 10) * (1 + e.api.fee / 100) := by
      simp only [costWithFee, haction]
      ring
    have hpaid : 0 ≤ costWithFee e.api.fee (e.request, price) := by
      simp only [costWithFee, haction]
      positivity
    have hloss : price * ⌊e.request.get .volume * 10 ^ 10⌋ -
        ⌊price * (e.request.get .volume * 10 ^ 10) * (1 + e.api.fee / 100)⌋ < _ :=
      mul_floor_sub_floor_lt hprice
    rw [unitSold, feeValue, haction, div_lt_iff₀ volumeModifier_pos, sub_mul,
      div_mul_cancel₀ _ volumeModifier_pos.ne', hfloor hvolume.le hgain, hfloor hpaid hsold, hcost,
      volumeModifier]
    linarith
  | sell =>
    rw [fillOf_sell haction] at hgain hsold hnonneg
    have hcost : costWithFee e.api.fee (e.request, price) * 10 ^ 10 =
        price * (e.request.get .volume * 10 ^ 10) * (1 - e.api.fee / 100) := by
      simp only [costWithFee, haction]
      ring
    have hloss : ⌊price * (e.request.get .volume * 10 ^ 10) * (1 - e.api.fee / 100)⌋ -
        price * ⌊e.request.get .volume * 10 ^ 10⌋ < _ := floor_sub_mul_floor_lt hprice
    rw [unitSold, feeValue, haction, div_lt_iff₀ volumeModifier_pos, sub_mul,
      div_mul_cancel₀ _ volumeModifier_pos.ne', hfloor hvolume.le hsold, hfloor hnonneg hgain, hcost,
      volumeModifier]
    linarith

/-- The fill of an evaluation adds less to the equity than one unit of what it sells is worth, less
its fee. -/
def GainsLittle (fee : ℚ) (pair : TradablePair) (price : ℚ) (e : Evaluation) : Prop :=
  e.api.covers e.request price = true →
    (e.api.filled e.feed e.id e.request price).equity pair price <
      e.api.equity pair price + (unitSold price e.request - feeValue fee price e.request)

end Evaluation

namespace Session

variable {config : PaperTradingConfig} {inputs : List (Feed × Call)} {pair : TradablePair} {price : ℚ}

/-- What the fills of a session add to the equity at most. -/
def equityBound (config : PaperTradingConfig) (price : ℚ) (fills : List FilledOrder) : ℚ :=
  (fills.map fun fill => unitSold price fill.1 - feeValue config.fee price fill.1).sum

/-- Another fill moves the bound by what it loses. -/
theorem equityBound_concat (fills : List FilledOrder) (fill : FilledOrder) :
    equityBound config price (fills ++ [fill]) = equityBound config price fills +
      (unitSold price fill.1 - feeValue config.fee price fill.1) := by
  simp [equityBound]

/-- What is known of the evaluations at a constant price. -/
theorem evaluations_atConstantPrice (hinputs : ∀ input ∈ inputs, AtConstantPrice pair price input) :
    ∀ e ∈ runEvaluations config inputs,
      e.request.MarketOn pair ∧ e.api.fee = config.fee ∧ e.feed.price pair = price := by
  intro e he
  obtain ⟨hrequest, hfee, input, hinput, hfeed⟩ :=
    evaluations_of_inputs (fun input hinput => (hinputs input hinput).request) e he
  exact ⟨hrequest, hfee, hfeed ▸ (hinputs input hinput).price⟩

/-- The balances that an evaluation meets are below the modulus. -/
theorem evaluations_balance_lt :
    ∀ e ∈ runEvaluations config inputs, ∀ asset, e.api.balance asset < volumeModulus := by
  apply forall_evaluationsFrom (P := fun s => ∀ asset, s.api.balance asset < volumeModulus)
    (Q := fun e => ∀ asset, e.api.balance asset < volumeModulus)
  · intro s hwell hbounded input _ e he
    cases hcall : input.2 with
    | addOrder request | addOrderConfirm request =>
      rw [hcall] at he
      cases List.mem_singleton.mp he
      exact hbounded
    | cancelOrder =>
      rw [hcall] at he
      cases he
    | tradeUpdate pair =>
      rw [hcall] at he
      refine (PaperTradeApi.of_mem_walkEvaluations
        (P := fun api => ∀ asset, api.balance asset < volumeModulus) ?_ hbounded he).1
      intro api id request result api' hbounded hcase
      cases hcase with
      | noPrice | waiting | unpaid => exact hbounded
      | filled => exact Fill.applyTo_lt hbounded
  · exact fun s hwell hbounded input _ => hwell.step_balance_lt hbounded input
  · exact WellFormed.start config
  · exact Balanced.createInitialisedBalances_lt config.balances

/-- The equity is at most that of the start and what the fills have added. -/
def EquityBounded (config : PaperTradingConfig) (pair : TradablePair) (price : ℚ) (s : Session) :
    Prop :=
  s.api.equity pair price ≤ (start config).api.equity pair price + equityBound config price s.fills

/-- A call at the price keeps the equity within its bound. -/
theorem EquityBounded.step {config : PaperTradingConfig} {pair : TradablePair} {price : ℚ}
    {s : Session} (hequity : EquityBounded config pair price s) (hwell : s.WellFormed)
    (input : Feed × Call)
    (hall : ∀ e ∈ s.api.callEvaluations input.1 input.2,
      e.executionPrice = some price ∧ e.GainsLittle config.fee pair price) :
    EquityBounded config pair price (s.step input) := by
  apply hwell.step_induction_of_evaluations (P := EquityBounded config pair price) hequity
  case register =>
    intro s hwell hequity request
    rw [EquityBounded, hwell.fills_register request]
    exact hequity
  case evaluated =>
    rintro ⟨feed, api, id, request⟩ he s hwell hequity hapi hlookup result api' hcase
    obtain rfl : s.api = api := hapi
    obtain ⟨hexecution, hlt⟩ := hall _ he
    cases hcase with
    | noPrice | waiting | unpaid => exact hequity
    | filled fillPrice htrigger hcovers =>
      obtain rfl : fillPrice = price := Option.some.inj (htrigger.symm.trans hexecution)
      have hgain := hlt hcovers
      unfold EquityBounded at hequity ⊢
      rw [fills_filled feed (hwell.open_request id request hlookup), equityBound_concat]
      linarith
  case relisted => exact fun s h pair ids => h
  case cancelled => exact fun s hwell h id hopen => h

/-- While the price of a pair is constant and only market orders on it are filled, every fill adds
less to the equity than one unit of what it sells is worth, less its fee. -/
theorem run_equity (config : PaperTradingConfig) (hfee : 0 ≤ config.fee) {pair : TradablePair}
    (hpair : pair.asset ≠ pair.priceUnit) {price : ℚ} (hprice : 0 < price)
    (inputs : List (Feed × Call)) (hinputs : ∀ input ∈ inputs, AtConstantPrice pair price input)
    (hrange : ∀ e ∈ runEvaluations config inputs, e.Representable) :
    (∀ e ∈ runEvaluations config inputs, e.api.covers e.request price = true →
      (e.api.filled e.feed e.id e.request price).equity pair price <
        e.api.equity pair price + (unitSold price e.request - feeValue config.fee price e.request)) ∧
    (run config inputs).api.equity pair price ≤
      (start config).api.equity pair price + equityBound config price (run config inputs).fills := by
  have hfill : ∀ e ∈ runEvaluations config inputs, e.GainsLittle config.fee pair price := by
    intro e he hcovers
    obtain ⟨hrequest, hsame, hfeed⟩ := evaluations_atConstantPrice hinputs e he
    have hlt := Evaluation.equity_filled_lt hpair hprice (hsame ▸ hfee) hrequest hfeed (hrange e he)
      (evaluations_balance_lt e he) hcovers
    rwa [hsame] at hlt
  refine ⟨hfill, ?_⟩
  apply invariant_of_evaluationsFrom (P := EquityBounded config pair price)
    (Q := fun e => e.executionPrice = some price ∧ e.GainsLittle config.fee pair price)
  · exact fun s hwell hequity input hall => hequity.step hwell input hall
  · intro e he
    obtain ⟨hrequest, _, hfeed⟩ := evaluations_atConstantPrice hinputs e he
    exact ⟨Evaluation.executionPrice_of_market hrequest hfeed hprice, hfill e he⟩
  · exact WellFormed.start config
  · simp [EquityBounded, start, fills, PaperTradeApi.create, equityBound]

/-- A purchase of 2 BTC at 20 GBP. -/
theorem run_equity_purchase :
    (run ⟨1 / 10, [("GBP", 100)]⟩
      [(Feed.quote 20, .addOrder (createMarketOrder ⟨"BTC", "GBP"⟩ .buy 2))]).api.equity
        ⟨"BTC", "GBP"⟩ 20 ≤
      (start ⟨1 / 10, [("GBP", 100)]⟩).api.equity ⟨"BTC", "GBP"⟩ 20 +
        equityBound ⟨1 / 10, [("GBP", 100)]⟩ 20 (run ⟨1 / 10, [("GBP", 100)]⟩
          [(Feed.quote 20, .addOrder (createMarketOrder ⟨"BTC", "GBP"⟩ .buy 2))]).fills := by
  apply (run_equity _ (by decide +kernel) (by decide) (by decide) _ _ _).2
  · intro input hinput
    rw [List.mem_singleton.mp hinput]
    refine ⟨rfl, fun request h => ?_⟩
    cases h
    exact ⟨rfl, rfl, by decide +kernel⟩
  · intro e he
    cases List.mem_singleton.mp he
    constructor
    · intro fill hfill
      cases hfill
      exact ⟨by decide +kernel, by decide +kernel, fun _ => by decide +kernel⟩
    · intro fill hfill
      cases hfill
      decide +kernel

/-- One unit is bought for nothing by an account without money, at half a unit and with a fee of
0.1 %; and an asset that is its own price unit is bought at half its worth. -/
theorem run_equity_increases :
    (start ⟨1 / 10, [("GBP", 0)]⟩).api.equity ⟨"BTC", "GBP"⟩ (1 / 2) <
      (run ⟨1 / 10, [("GBP", 0)]⟩ [(Feed.quote (1 / 2),
        .addOrder (createMarketOrder ⟨"BTC", "GBP"⟩ .buy (1 / 10 ^ 10)))]).api.equity
          ⟨"BTC", "GBP"⟩ (1 / 2) ∧
    (start ⟨1 / 10, [("GBP", 1)]⟩).api.equity ⟨"GBP", "GBP"⟩ (1 / 2) <
      (run ⟨1 / 10, [("GBP", 1)]⟩ [(Feed.quote (1 / 2),
        .addOrder (createMarketOrder ⟨"GBP", "GBP"⟩ .buy 1))]).api.equity ⟨"GBP", "GBP"⟩ (1 / 2) := by
  decide +kernel

end Session

end MarketBlocks
