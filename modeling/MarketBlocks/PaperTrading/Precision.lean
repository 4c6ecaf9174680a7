import MarketBlocks.PaperTrading.Executions
import MarketBlocks.PaperTrading.Ledger

/-!
# The precision of the balances

Amounts become multiples of `10⁻¹⁰` that are kept in 64 bits, at the start and with every execution.
Nothing checks that they fit: the conversion of a larger amount is undefined, and an addition wraps.
As long as all amounts fit, each conversion is off by less than one unit, and the balances that
`get_balances` reports stay close to the exact ones.
-/

namespace MarketBlocks

open Library

/-- What the balances hold at most, `2⁶⁴` multiples of `10⁻¹⁰`. -/
def volumeCapacity : ℚ := volumeModulus / volumeModifier

/-! ## Exact balances -/

/-- What a buyer pays with the fee, or a seller gets without it. -/
def costWithFee (fee : ℚ) (fill : FilledOrder) : ℚ :=
  let cost := fill.2 * fill.1.get .volume
  match fill.1.action with
  | .buy => cost * (1 + fee / 100)
  | .sell => cost * (1 - fee / 100)

/-- What a fill adds to the exact balance of an asset. -/
def exactEntry (fee : ℚ) (fill : FilledOrder) (asset : String) : ℚ :=
  let volume := if asset = fill.1.pair.asset then fill.1.get .volume else 0
  let cost := if asset = fill.1.pair.priceUnit then costWithFee fee fill else 0
  match fill.1.action with
  | .buy => volume - cost
  | .sell => cost - volume

/-- The configured balance of an asset and the exact entries of the given fills. -/
def exactBalance (config : PaperTradingConfig) (fills : List FilledOrder) (asset : String) : ℚ :=
  ((config.balances.find? (·.1 = asset)).map (·.2)).getD 0 +
    (fills.map (exactEntry config.fee · asset)).sum

namespace PaperTradeApi

/-- The entries of the map that `get_balances` returns. -/
def getBalances (api : PaperTradeApi) (asset : String) : Option ℚ :=
  (api.balances.lookup asset).map fun volume => volume / volumeModifier

/-- What `get_balances` reports of an asset. -/
def reportedBalance (api : PaperTradeApi) (asset : String) : ℚ := (api.getBalances asset).getD 0

/-- What is reported is the whole number over the modifier. -/
theorem reportedBalance_eq (api : PaperTradeApi) (asset : String) :
    api.reportedBalance asset = api.balance asset / volumeModifier := by
  rw [reportedBalance, getBalances, balance, UnorderedMap.findOrDefault]
  cases api.balances.lookup asset with
  | none => exact (zero_div volumeModifier).symm
  | some volume => rfl

end PaperTradeApi

/-! ## What one fill loses -/

/-- A sum of amounts loses less than one unit to truncation when one of them is added and one
subtracted. -/
theorem abs_floor_sub_floor_lt (a b : ℚ) : |((⌊a⌋ - ⌊b⌋ : ℤ) : ℚ) - (a - b)| < 1 := by
  have ha := Int.floor_le a
  have ha' := Int.lt_floor_add_one a
  have hb := Int.floor_le b
  have hb' := Int.lt_floor_add_one b
  push_cast
  rw [abs_lt]
  constructor
  · linarith
  · linarith

/-- The entry of a fill is off by less than one unit. -/
theorem abs_ledgerEntry_sub_lt (fee : ℚ) (fill : FilledOrder) (asset : String) :
    |(ledgerEntry fee fill asset : ℚ) - exactEntry fee fill asset * 10 ^ 10| < 1 := by
  have hscaled (p : Prop) [Decidable p] (x : ℚ) :
      (if p then ⌊x * 10 ^ 10⌋ else 0) = ⌊(if p then x else 0) * 10 ^ 10⌋ := by
    split
    · rfl
    · rw [zero_mul, Int.floor_zero]
  have hloss := abs_floor_sub_floor_lt
  unfold ledgerEntry exactEntry costWithFee
  cases fill.1.action with
  | buy =>
    simp only [hscaled, sub_mul]
    exact hloss _ _
  | sell =>
    simp only [hscaled, sub_mul]
    exact hloss _ _

/-- The modifier is positive. -/
theorem volumeModifier_pos : 0 < volumeModifier := by
  rw [volumeModifier]
  norm_num

/-- An amount fits when its whole number has 64 bits. -/
theorem lt_volumeCapacity_iff {value : ℚ} :
    value < volumeCapacity ↔ value * 10 ^ 10 < 2 ^ 64 := by
  rw [volumeCapacity, lt_div_iff₀ volumeModifier_pos, volumeModifier, volumeModulus]
  norm_num

/-! ## Ledgers -/

/-- The initial balance of an asset is off by less than one unit. -/
theorem abs_createInitialisedBalances_sub_lt {balances : List (String × ℚ)}
    (hnonneg : ∀ item ∈ balances, 0 ≤ item.2) (hlt : ∀ item ∈ balances, item.2 < volumeCapacity)
    (asset : String) :
    |((createInitialisedBalances balances).findOrDefault asset : ℚ) -
      ((balances.find? (·.1 = asset)).map (·.2)).getD 0 * 10 ^ 10| < 1 := by
  have hsame : (fun item : String × ℚ => decide (asset = item.1)) = fun item => decide (item.1 = asset) := by
    funext item
    rw [decide_eq_decide]
    exact eq_comm
  rw [UnorderedMap.findOrDefault, createInitialisedBalances, UnorderedMap.lookup_foldl_emplace_map,
    Finmap.lookup_empty, Option.none_or, hsame]
  cases hitem : balances.find? fun item => decide (item.1 = asset) with
  | none => norm_num
  | some item =>
    have hmem := List.mem_of_find?_eq_some hitem
    have hfloor := toIntegerVolume_eq_floor (hnonneg item hmem) (lt_volumeCapacity_iff.mp (hlt item hmem))
    have hloss := abs_floor_sub_floor_lt (item.2 * 10 ^ 10) 0
    rw [Int.floor_zero, sub_zero, sub_zero, ← hfloor] at hloss
    exact hloss

/-- Each fill adds less than one unit to what the ledger is off by. -/
theorem abs_sum_ledgerEntry_sub_le (fee : ℚ) (fills : List FilledOrder) (asset : String) :
    |(((fills.map (ledgerEntry fee · asset)).sum : ℤ) : ℚ) -
      (fills.map (exactEntry fee · asset)).sum * 10 ^ 10| ≤ (fills.length : ℚ) := by
  induction fills with
  | nil => simp
  | cons fill rest ih =>
    have hfirst := abs_ledgerEntry_sub_lt fee fill asset
    have hsplit : ((((fill :: rest).map (ledgerEntry fee · asset)).sum : ℤ) : ℚ) -
        ((fill :: rest).map (exactEntry fee · asset)).sum * 10 ^ 10 =
          (((rest.map (ledgerEntry fee · asset)).sum : ℤ) - (rest.map (exactEntry fee · asset)).sum *
            10 ^ 10) + ((ledgerEntry fee fill asset : ℚ) - exactEntry fee fill asset * 10 ^ 10) := by
      rw [List.map_cons, List.map_cons, List.sum_cons, List.sum_cons, Int.cast_add]
      ring
    rw [hsplit, List.length_cons, Nat.cast_add, Nat.cast_one]
    exact (abs_add_le _ _).trans (add_le_add ih hfirst.le)

/-- Each fill loses less than one unit. -/
theorem abs_ledger_sub_lt {config : PaperTradingConfig}
    (hnonneg : ∀ item ∈ config.balances, 0 ≤ item.2)
    (hlt : ∀ item ∈ config.balances, item.2 < volumeCapacity) (fills : List FilledOrder)
    (asset : String) :
    |(ledger config fills asset : ℚ) - exactBalance config fills asset * 10 ^ 10| <
      (fills.length : ℚ) + 1 := by
  have hinitial := abs_createInitialisedBalances_sub_lt hnonneg hlt asset
  have hentries := abs_sum_ledgerEntry_sub_le config.fee fills asset
  have hsplit : (ledger config fills asset : ℚ) - exactBalance config fills asset * 10 ^ 10 =
      ((((fills.map (ledgerEntry config.fee · asset)).sum : ℤ) : ℚ) -
        (fills.map (exactEntry config.fee · asset)).sum * 10 ^ 10) +
      (((createInitialisedBalances config.balances).findOrDefault asset : ℚ) -
        ((config.balances.find? (·.1 = asset)).map (·.2)).getD 0 * 10 ^ 10) := by
    rw [ledger, exactBalance, Int.cast_add, Int.cast_natCast]
    ring
  rw [hsplit]
  exact (abs_add_le _ _).trans_lt (add_lt_add_of_le_of_lt hentries hinitial)

/-! ## Amounts that fit -/

/-- The amounts of a fill are its volume and its cost. -/
theorem fillOf_buy {fee : ℚ} {request : OrderRequest} (haction : request.action = .buy) (fillPrice : ℚ) :
    fillOf fee request fillPrice =
      { gainedAsset := request.pair.asset, soldAsset := request.pair.priceUnit,
        gainValue := request.get .volume, soldValue := costWithFee fee (request, fillPrice) } := by
  have hcost : costWithFee fee (request, fillPrice) = fillPrice * request.get .volume +
      fillPrice * request.get .volume * fee * (1 / 100) := by
    simp only [costWithFee, haction]
    ring
  rw [hcost]
  simp only [fillOf, calculateCost, haction]

/-- A sale gains its price less the fee, and sells its volume. -/
theorem fillOf_sell {fee : ℚ} {request : OrderRequest} (haction : request.action = .sell)
    (fillPrice : ℚ) :
    fillOf fee request fillPrice =
      { gainedAsset := request.pair.priceUnit, soldAsset := request.pair.asset,
        gainValue := costWithFee fee (request, fillPrice), soldValue := request.get .volume } := by
  have hcost : costWithFee fee (request, fillPrice) = fillPrice * request.get .volume -
      fillPrice * request.get .volume * fee * (1 / 100) := by
    simp only [costWithFee, haction]
    ring
  rw [hcost]
  simp only [fillOf, calculateCost, haction]

/-- No fill costs less than nothing. -/
theorem costWithFee_nonneg {fee : ℚ} (hfee : 0 ≤ fee ∧ fee ≤ 100) {fill : FilledOrder}
    (hvolume : 0 ≤ fill.1.get .volume) (hprice : 0 ≤ fill.2) : 0 ≤ costWithFee fee fill := by
  have hcost : 0 ≤ fill.2 * fill.1.get .volume := mul_nonneg hprice hvolume
  obtain ⟨hlow, hhigh⟩ := hfee
  unfold costWithFee
  cases fill.1.action with
  | buy => exact mul_nonneg hcost (by linarith)
  | sell => exact mul_nonneg hcost (by linarith)

/-- An addition does not wrap exactly when the sum of the amounts is below the capacity. -/
theorem add_toIntegerVolume_lt_iff {value : ℚ} (hnonneg : 0 ≤ value) (hlt : value < volumeCapacity)
    (balance : ℕ) :
    balance + toIntegerVolume value < volumeModulus ↔
      balance / volumeModifier + value < volumeCapacity := by
  have hfloor := toIntegerVolume_eq_floor hnonneg (lt_volumeCapacity_iff.mp hlt)
  have hsum : (balance / volumeModifier + value) * 10 ^ 10 = balance + value * 10 ^ 10 := by
    rw [add_mul, volumeModifier, div_mul_cancel₀ _ (by norm_num)]
  have hmodulus : ((volumeModulus : ℕ) : ℤ) = 2 ^ 64 := by norm_num [volumeModulus]
  rw [lt_volumeCapacity_iff, hsum, ← Int.ofNat_lt, Nat.cast_add, hfloor, hmodulus, ← lt_sub_iff_add_lt',
    Int.floor_lt, ← lt_sub_iff_add_lt']
  push_cast
  rfl

namespace Evaluation

/-- The amounts that `execute_order` converts, if it is called. -/
def fill (e : Evaluation) : Option Fill := e.executionPrice.map (fillOf e.api.fee e.request)

/-- Every converted amount is below the capacity, and the addition of an order that is paid for does
not wrap. -/
def InRange (e : Evaluation) : Prop :=
  ∀ fill, e.fill = some fill →
    fill.gainValue < volumeCapacity ∧ fill.soldValue < volumeCapacity ∧
      (e.api.hasSufficientFunds fill.soldAsset (toIntegerVolume fill.soldValue) = true →
        e.api.balance fill.gainedAsset + toIntegerVolume fill.gainValue < volumeModulus)

/-- What the balance of the gained asset comes to. -/
def balanceAfter (e : Evaluation) (fillPrice : ℚ) : ℚ :=
  match e.request.action with
  | .buy => e.api.reportedBalance e.request.pair.asset + e.request.get .volume
  | .sell =>
    e.api.reportedBalance e.request.pair.priceUnit + costWithFee e.api.fee (e.request, fillPrice)

/-- An order that triggers is small: so are its volume, its cost with the fee and, if it is paid for,
the balance after it. -/
structure Small (e : Evaluation) (fillPrice : ℚ) : Prop where
  volume_lt : e.request.get .volume < volumeCapacity
  cost_lt : costWithFee e.api.fee (e.request, fillPrice) < volumeCapacity
  balance_lt : e.api.covers e.request fillPrice = true → e.balanceAfter fillPrice < volumeCapacity

/-- The amounts of the fill fit into whole numbers. -/
def IsSmall (e : Evaluation) : Prop := ∀ fillPrice, e.executionPrice = some fillPrice → e.Small fillPrice

/-- An order without negative numbers, at a price that is not negative. -/
structure NonNegative (e : Evaluation) : Prop where
  fee : 0 ≤ e.api.fee ∧ e.api.fee ≤ 100
  volume : 0 ≤ e.request.get .volume
  price : ∀ fillPrice, e.executionPrice = some fillPrice → 0 ≤ fillPrice

variable {e : Evaluation}

/-- What fits is what is small. -/
theorem small_iff (h : e.NonNegative) {fillPrice : ℚ} (hprice : e.executionPrice = some fillPrice) :
    e.Small fillPrice ↔
      (fillOf e.api.fee e.request fillPrice).gainValue < volumeCapacity ∧
        (fillOf e.api.fee e.request fillPrice).soldValue < volumeCapacity ∧
          (e.api.covers e.request fillPrice = true →
            e.api.balance (fillOf e.api.fee e.request fillPrice).gainedAsset +
              toIntegerVolume (fillOf e.api.fee e.request fillPrice).gainValue < volumeModulus) := by
  have hcost : 0 ≤ costWithFee e.api.fee (e.request, fillPrice) :=
    costWithFee_nonneg h.fee h.volume (h.price fillPrice hprice)
  cases haction : e.request.action with
  | buy =>
    have hafter : e.balanceAfter fillPrice =
        e.api.balance e.request.pair.asset / volumeModifier + e.request.get .volume := by
      rw [balanceAfter, haction, PaperTradeApi.reportedBalance_eq]
    rw [fillOf_buy haction]
    constructor
    · intro hsmall
      refine ⟨hsmall.volume_lt, hsmall.cost_lt, fun hcovers => ?_⟩
      rw [add_toIntegerVolume_lt_iff h.volume hsmall.volume_lt, ← hafter]
      exact hsmall.balance_lt hcovers
    · rintro ⟨hvolume, hcost, hbalance⟩
      refine ⟨hvolume, hcost, fun hcovers => ?_⟩
      rw [hafter, ← add_toIntegerVolume_lt_iff h.volume hvolume]
      exact hbalance hcovers
  | sell =>
    have hafter : e.balanceAfter fillPrice = e.api.balance e.request.pair.priceUnit / volumeModifier +
        costWithFee e.api.fee (e.request, fillPrice) := by
      simp only [balanceAfter, haction, PaperTradeApi.reportedBalance_eq]
    rw [fillOf_sell haction]
    constructor
    · intro hsmall
      refine ⟨hsmall.cost_lt, hsmall.volume_lt, fun hcovers => ?_⟩
      rw [add_toIntegerVolume_lt_iff hcost hsmall.cost_lt, ← hafter]
      exact hsmall.balance_lt hcovers
    · rintro ⟨hlt, hvolume, hbalance⟩
      refine ⟨hvolume, hlt, fun hcovers => ?_⟩
      rw [hafter, ← add_toIntegerVolume_lt_iff hcost hlt]
      exact hbalance hcovers

/-- Of what is not negative, to be in range is to be small. -/
theorem inRange_iff_isSmall (h : e.NonNegative) : e.InRange ↔ e.IsSmall := by
  constructor
  · intro hrange fillPrice hprice
    rw [small_iff h hprice]
    exact hrange _ (congrArg (Option.map _) hprice)
  · intro hsmall fill hfill
    obtain ⟨fillPrice, hprice, rfl⟩ := Option.map_eq_some_iff.mp hfill
    exact (small_iff h hprice).mp (hsmall fillPrice hprice)

/-- The amounts of a small order convert. -/
theorem Small.converts {fillPrice : ℚ} (hsmall : e.Small fillPrice) (h : e.NonNegative)
    (hprice : e.executionPrice = some fillPrice) : Converts e.api.fee (e.request, fillPrice) where
  price_nonneg := h.price fillPrice hprice
  volume_nonneg := h.volume
  gain_lt := lt_volumeCapacity_iff.mp ((small_iff h hprice).mp hsmall).1
  sold_lt := lt_volumeCapacity_iff.mp ((small_iff h hprice).mp hsmall).2.1

end Evaluation

/-- A request without negative numbers. -/
structure OrderRequest.NonNegative (request : OrderRequest) : Prop where
  volume : 0 ≤ request.get .volume
  assetPrice : 0 ≤ request.get .assetPrice
  stopPrice : 0 ≤ request.get .stopPrice

/-- A call without negative numbers, with prices that are not negative. -/
structure NonNegativeInput (input : Feed × Call) : Prop where
  price : ∀ pair, 0 ≤ input.1.price pair
  request : ∀ request, input.2.request? = some request → request.NonNegative

/-- An order fills at a price that is not negative. -/
theorem triggerPrice_nonneg {request : OrderRequest} {stored : Option ℚ} {price fillPrice : ℚ}
    (hrequest : request.NonNegative) (hprice : 0 ≤ price)
    (h : triggerPrice request stored price = some fillPrice) : 0 ≤ fillPrice := by
  unfold triggerPrice at h
  cases htype : request.orderType with
  | market =>
    rw [htype] at h
    exact Option.some.inj h ▸ hprice
  | limit =>
    simp only [htype, Option.ite_some_none_eq_some] at h
    exact h.2 ▸ hrequest.assetPrice
  | stopLoss =>
    simp only [htype, Option.ite_some_none_eq_some] at h
    exact h.2 ▸ hrequest.stopPrice
  | trailingStopLoss =>
    simp only [htype, Option.ite_some_none_eq_some] at h
    exact h.2 ▸ hprice
  | takeProfit =>
    rw [htype] at h
    cases h

namespace Session

variable {config : PaperTradingConfig} {inputs : List (Feed × Call)}

/-- No evaluation of such calls has negative numbers. -/
theorem evaluations_nonNegative (hfee : 0 ≤ config.fee ∧ config.fee ≤ 100)
    (hinputs : ∀ input ∈ inputs, NonNegativeInput input) :
    ∀ e ∈ runEvaluations config inputs, e.NonNegative := by
  intro e he
  obtain ⟨hrequest, hsame, input, hinput, hfeed⟩ :=
    evaluations_of_inputs (fun input hinput => (hinputs input hinput).request) e he
  refine ⟨by rwa [hsame], hrequest.volume, fun fillPrice h => ?_⟩
  rw [Evaluation.executionPrice, PaperTradeApi.trigger, hfeed] at h
  split at h
  · cases h
  · exact triggerPrice_nonneg hrequest ((hinputs input hinput).price _) h

/-- Fills that fit and a further one that does. -/
private theorem fits_concat {fills : List FilledOrder} {fill : FilledOrder} (h : Fits config fills)
    (hconverts : Converts config.fee fill)
    (hroom : ledger config fills (fillOf config.fee fill.1 fill.2).gainedAsset +
      ⌊(fillOf config.fee fill.1 fill.2).gainValue * 10 ^ 10⌋ < 2 ^ 64) :
    Fits config (fills ++ [fill]) where
  converts other hother := by
    rcases List.mem_append.mp hother with hold | hnew
    · exact h.converts other hold
    · rw [List.mem_singleton.mp hnew]
      exact hconverts
  room before other hpart := by
    rcases List.prefix_concat_iff.mp hpart with heq | hpart
    · obtain ⟨rfl, hlast⟩ := List.append_inj' heq rfl
      cases List.singleton_inj.mp hlast
      exact hroom
    · exact h.room before other hpart

/-- A call whose orders are small keeps the fills fitting. -/
private theorem fits_step (hfee : 0 ≤ config.fee ∧ config.fee ≤ 100) {s : Session} (hwell : s.WellFormed)
    (hbalanced : Balanced config s) (hfits : Fits config s.fills) (input : Feed × Call)
    (hsmall : ∀ e ∈ s.api.callEvaluations input.1 input.2, e.NonNegative ∧ e.IsSmall) :
    Balanced config (s.step input) ∧ Fits config (s.step input).fills := by
  apply hwell.step_induction_of_evaluations
    (P := fun s => Balanced config s ∧ Fits config s.fills) ⟨hbalanced, hfits⟩
  case register =>
    rintro s hwell ⟨hbalanced, hfits⟩ request
    rw [hwell.fills_register request]
    exact ⟨hbalanced.of_same rfl rfl (hwell.fills_register request), hfits⟩
  case evaluated =>
    rintro ⟨feed, api, id, request⟩ he s hwell ⟨hbalanced, hfits⟩ hapi hlookup result api' hcase
    obtain rfl : s.api = api := hapi
    cases hcase with
    | noPrice | waiting | unpaid => exact ⟨hbalanced.of_same rfl rfl rfl, hfits⟩
    | filled fillPrice htrigger hcovers =>
      obtain ⟨hnonneg, hsmall⟩ := hsmall _ he
      have hsmall := hsmall fillPrice htrigger
      have hrequest := hwell.open_request id request hlookup
      have hconverts : Converts config.fee (request, fillPrice) :=
        hbalanced.fee_eq ▸ hsmall.converts hnonneg htrigger
      refine ⟨hbalanced.filled hfee hrequest hcovers, ?_⟩
      rw [fills_filled feed hrequest]
      refine fits_concat hfits hconverts ?_
      have hroom := ((Evaluation.small_iff hnonneg htrigger).mp hsmall).2.2 hcovers
      rw [← toIntegerVolume_eq_floor (hconverts.nonneg hfee).1 hconverts.gain_lt,
        ← hbalanced.balance_eq hfits, ← hbalanced.fee_eq]
      rw [volumeModulus] at hroom
      exact_mod_cast hroom
  case relisted => exact fun s h pair ids => ⟨h.1.of_same rfl rfl rfl, h.2⟩
  case cancelled => exact fun s hwell h id hopen => ⟨h.1.of_same rfl rfl rfl, h.2⟩

/-- Of a session whose orders are small, the fills fit and the balances are those of the ledger. -/
private theorem fits_of_small (hfee : 0 ≤ config.fee ∧ config.fee ≤ 100)
    (hsmall : ∀ e ∈ runEvaluations config inputs, e.NonNegative ∧ e.IsSmall) :
    Balanced config (run config inputs) ∧ Fits config (run config inputs).fills := by
  apply invariant_of_evaluationsFrom (P := fun s => Balanced config s ∧ Fits config s.fills) _ hsmall
  · exact WellFormed.start config
  · refine ⟨Balanced.start config, fun fill hfill => absurd hfill List.not_mem_nil, ?_⟩
    intro before fill hpart
    simp [start, fills, PaperTradeApi.create] at hpart
  · exact fun s hwell h input hall => fits_step hfee hwell h.1 h.2 input hall

/-- The reported balances of such a session are close to the exact ones. -/
theorem abs_reportedBalance_sub_lt (hfee : 0 ≤ config.fee ∧ config.fee ≤ 100)
    (hnonneg : ∀ item ∈ config.balances, 0 ≤ item.2)
    (hlt : ∀ item ∈ config.balances, item.2 < volumeCapacity)
    (hsmall : ∀ e ∈ runEvaluations config inputs, e.NonNegative ∧ e.IsSmall) (asset : String) :
    |(run config inputs).api.reportedBalance asset -
      exactBalance config (run config inputs).fills asset| <
        (((run config inputs).fills.length : ℚ) + 1) / 10 ^ 10 := by
  obtain ⟨hbalanced, hfits⟩ := fits_of_small hfee hsmall
  have hledger := abs_ledger_sub_lt hnonneg hlt (run config inputs).fills asset
  rw [← hbalanced.balance_eq hfits asset] at hledger
  have hscaled : (run config inputs).api.reportedBalance asset -
      exactBalance config (run config inputs).fills asset =
        ((((run config inputs).api.balance asset : ℤ) : ℚ) -
          exactBalance config (run config inputs).fills asset * 10 ^ 10) / 10 ^ 10 := by
    rw [PaperTradeApi.reportedBalance_eq, volumeModifier, sub_div, mul_div_cancel_right₀ _ (by norm_num)]
    rfl
  rw [hscaled, abs_div, abs_of_pos (by norm_num : (0 : ℚ) < 10 ^ 10)]
  exact div_lt_div_of_pos_right hledger (by norm_num)

/-- The ledger of a session never overflows: all amounts that are converted are below the capacity,
no addition wraps, and the reported balances are close to the exact ones all along. -/
structure NeverOverflows (config : PaperTradingConfig) (inputs : List (Feed × Call)) : Prop where
  initial : ∀ item ∈ config.balances, item.2 < volumeCapacity
  inRange : ∀ e ∈ runEvaluations config inputs, e.InRange
  precise : ∀ before, before <+: inputs → ∀ asset,
    |(run config before).api.reportedBalance asset -
      exactBalance config (run config before).fills asset| <
        (((run config before).fills.length : ℚ) + 1) / 10 ^ 10

/-- The configured balances and the orders that trigger are small. -/
structure StaysSmall (config : PaperTradingConfig) (inputs : List (Feed × Call)) : Prop where
  balances : ∀ item ∈ config.balances, item.2 < volumeCapacity
  orders : ∀ e ∈ runEvaluations config inputs, e.IsSmall

/-- Without negative numbers, the ledger never overflows exactly when the configured balances and the
orders are small. -/
theorem run_neverOverflows_iff (config : PaperTradingConfig) (hfee : 0 ≤ config.fee ∧ config.fee ≤ 100)
    (hnonneg : ∀ item ∈ config.balances, 0 ≤ item.2) (inputs : List (Feed × Call))
    (hinputs : ∀ input ∈ inputs, NonNegativeInput input) :
    NeverOverflows config inputs ↔ StaysSmall config inputs := by
  have hevaluations := evaluations_nonNegative hfee hinputs
  constructor
  · intro hnever
    exact ⟨hnever.initial, fun e he =>
      (Evaluation.inRange_iff_isSmall (hevaluations e he)).mp (hnever.inRange e he)⟩
  · intro hsmall
    refine ⟨hsmall.balances, fun e he =>
      (Evaluation.inRange_iff_isSmall (hevaluations e he)).mpr (hsmall.orders e he), ?_⟩
    rintro before ⟨after, rfl⟩ asset
    refine abs_reportedBalance_sub_lt hfee hnonneg hsmall.balances (fun e he => ?_) asset
    have hmem : e ∈ runEvaluations config (before ++ after) := by
      rw [runEvaluations, evaluationsFrom_append]
      exact List.mem_append_left _ he
    exact ⟨hevaluations e hmem, hsmall.orders e hmem⟩

/-- A purchase of 2 BTC for 40.04 GBP. -/
theorem run_neverOverflows_market :
    NeverOverflows ⟨1 / 10, [("GBP", 100), ("BTC", 3 / 2)]⟩
      [(Feed.quote 20, .addOrder (createMarketOrder ⟨"BTC", "GBP"⟩ .buy 2))] := by
  apply (run_neverOverflows_iff _ (by decide +kernel) (by decide +kernel) _ _).mpr
  · refine ⟨by decide +kernel, ?_⟩
    intro e he fillPrice hprice
    cases List.mem_singleton.mp he
    have hfill : fillPrice = 20 := (Option.some.inj hprice).symm
    rw [hfill]
    exact ⟨by decide +kernel, by decide +kernel, fun _ => by decide +kernel⟩
  · intro input hinput
    rw [List.mem_singleton.mp hinput]
    refine ⟨fun _ => (by decide : (0 : ℚ) ≤ 20), fun request h => ?_⟩
    cases h
    exact ⟨by decide +kernel, by decide +kernel, by decide +kernel⟩

/-- A balance of two thousand million is too large to be converted; and one of 1.8 thousand million
comes down to less than a hundred million by a gain of a hundred million. -/
theorem run_overflows :
    ¬NeverOverflows ⟨0, [("JPY", 2 * 10 ^ 9)]⟩ [] ∧
      ¬NeverOverflows ⟨0, [("JPY", 18 * 10 ^ 8), ("BTC", 100)]⟩
        [(Feed.quote (10 ^ 6), .addOrder (createMarketOrder ⟨"BTC", "JPY"⟩ .sell 100))] ∧
      (run ⟨0, [("JPY", 18 * 10 ^ 8), ("BTC", 100)]⟩
        [(Feed.quote (10 ^ 6), .addOrder (createMarketOrder ⟨"BTC", "JPY"⟩ .sell 100))]).api.reportedBalance
          "JPY" < 10 ^ 8 := by
  refine ⟨fun hnever => ?_, fun hnever => ?_, by decide +kernel⟩
  · exact absurd (hnever.initial _ List.mem_cons_self) (by decide +kernel)
  · have hrange := hnever.inRange _ (List.mem_singleton_self _) _ rfl
    exact absurd (hrange.2.2 (by decide +kernel)) (by decide +kernel)

end Session

end MarketBlocks
