import MarketBlocks.PaperTrading.Session
import Mathlib.Data.Rat.Floor
import Mathlib.Tactic.Linarith
import Mathlib.Tactic.Positivity
import Mathlib.Tactic.Ring

/-!
# The ledger of the account

The balances are integers in units of `10⁻¹⁰`. Every fill adds the truncated gain to one
asset and takes the truncated amount sold from another, and nothing else moves a balance.
So a balance is its initial value plus the entries of all fills so far, as long as the
amounts fit in `volume_t`; the check for funds keeps the subtraction from wrapping.
-/

namespace MarketBlocks

open Library

/-- What the balances hold of an asset. -/
def PaperTradeApi.balance (api : PaperTradeApi) (asset : String) : ℕ :=
  api.balances.findOrDefault asset

/-- A filled order with its fill price. -/
abbrev FilledOrder := OrderRequest × ℚ

/-- What a fill adds to the balance of an asset: a buyer gains the volume for the cost and the
fee, a seller gives the volume for the cost less the fee. -/
def ledgerEntry (fee : ℚ) (fill : FilledOrder) (asset : String) : ℤ :=
  let volume := fill.1.get .volume
  let cost := fill.2 * volume
  match fill.1.action with
  | .buy =>
    (if asset = fill.1.pair.asset then ⌊volume * 10 ^ 10⌋ else 0) -
      (if asset = fill.1.pair.priceUnit then ⌊cost * (1 + fee / 100) * 10 ^ 10⌋ else 0)
  | .sell =>
    (if asset = fill.1.pair.priceUnit then ⌊cost * (1 - fee / 100) * 10 ^ 10⌋ else 0) -
      (if asset = fill.1.pair.asset then ⌊volume * 10 ^ 10⌋ else 0)

/-- The initial balance of an asset and the entries of the given fills. -/
def ledger (config : PaperTradingConfig) (fills : List FilledOrder) (asset : String) : ℤ :=
  ((createInitialisedBalances config.balances).findOrDefault asset : ℕ) +
    (fills.map (ledgerEntry config.fee · asset)).sum

/-- The fills of a session, in the order of its closed orders. -/
def Session.fills (s : Session) : List FilledOrder :=
  s.api.closedOrders.filterMap fun order =>
    (s.requests.lookup order.orderId).map fun request => (request, order.price)

/-- A fill with non-negative price and volume whose two amounts convert to `volume_t`. -/
structure Converts (fee : ℚ) (fill : FilledOrder) : Prop where
  price_nonneg : 0 ≤ fill.2
  volume_nonneg : 0 ≤ fill.1.get .volume
  gain_lt : (fillOf fee fill.1 fill.2).gainValue * 10 ^ 10 < 2 ^ 64
  sold_lt : (fillOf fee fill.1 fill.2).soldValue * 10 ^ 10 < 2 ^ 64

/-- Fills whose amounts convert and after each of whose gains the balance is below `2 ^ 64`. -/
structure Fits (config : PaperTradingConfig) (fills : List FilledOrder) : Prop where
  converts : ∀ fill ∈ fills, Converts config.fee fill
  room : ∀ before fill, before ++ [fill] <+: fills →
    ledger config before (fillOf config.fee fill.1 fill.2).gainedAsset +
      ⌊(fillOf config.fee fill.1 fill.2).gainValue * 10 ^ 10⌋ < 2 ^ 64

/-! ## One fill -/

/-- The conversion to `volume_t` takes the floor of an amount that fits. -/
theorem toIntegerVolume_eq_floor {volume : ℚ} (hnonneg : 0 ≤ volume)
    (hlt : volume * 10 ^ 10 < 2 ^ 64) : (toIntegerVolume volume : ℤ) = ⌊volume * 10 ^ 10⌋ := by
  have hscaled : 0 ≤ volume * 10 ^ 10 := by positivity
  have hfloor : ⌊volume * 10 ^ 10⌋ < 2 ^ 64 := Int.floor_lt.mpr (by exact_mod_cast hlt)
  have hpos : 0 ≤ ⌊volume * 10 ^ 10⌋ := Int.floor_nonneg.mpr hscaled
  have hdiv : (volume * 10 ^ 10).num.tdiv (volume * 10 ^ 10).den = ⌊volume * 10 ^ 10⌋ := by
    rw [Int.tdiv_eq_ediv_of_nonneg (Rat.num_nonneg.mpr hscaled), Rat.floor_def']
  have hmod : ((volumeModulus : ℕ) : ℤ) = 2 ^ 64 := by norm_num [volumeModulus]
  rw [toIntegerVolume, volumeModifier]
  simp only [hdiv, hmod]
  rw [Int.emod_eq_of_lt hpos hfloor, Int.toNat_of_nonneg hpos]

/-- A converted amount is below the modulus. -/
theorem toIntegerVolume_lt (volume : ℚ) : toIntegerVolume volume < volumeModulus := by
  have hpos : (0 : ℤ) < (volumeModulus : ℕ) := by norm_num [volumeModulus]
  have hlt := Int.emod_lt_of_pos
    ((volume * volumeModifier).num.tdiv (volume * volumeModifier).den) hpos
  unfold toIntegerVolume
  simp only
  omega

/-- The entry of a fill, in the amounts that `execute_order` computes. -/
theorem ledgerEntry_eq (fee : ℚ) (fill : FilledOrder) (asset : String) :
    ledgerEntry fee fill asset =
      (if asset = (fillOf fee fill.1 fill.2).gainedAsset then
        ⌊(fillOf fee fill.1 fill.2).gainValue * 10 ^ 10⌋ else 0) -
      (if asset = (fillOf fee fill.1 fill.2).soldAsset then
        ⌊(fillOf fee fill.1 fill.2).soldValue * 10 ^ 10⌋ else 0) := by
  have hbuy : fill.2 * fill.1.get .volume * (1 + fee / 100) =
      fill.2 * fill.1.get .volume + fill.2 * fill.1.get .volume * fee * (1 / 100) := by ring
  have hsell : fill.2 * fill.1.get .volume * (1 - fee / 100) =
      fill.2 * fill.1.get .volume - fill.2 * fill.1.get .volume * fee * (1 / 100) := by ring
  unfold ledgerEntry fillOf calculateCost
  cases fill.1.action with
  | buy => simp only [hbuy]
  | sell => simp only [hsell]

/-- The amounts of a fill with non-negative price and volume are non-negative. -/
theorem Converts.nonneg {fee : ℚ} {fill : FilledOrder} (h : Converts fee fill)
    (hfee : 0 ≤ fee ∧ fee ≤ 100) :
    0 ≤ (fillOf fee fill.1 fill.2).gainValue ∧ 0 ≤ (fillOf fee fill.1 fill.2).soldValue := by
  have hvolume := h.volume_nonneg
  have hcost : 0 ≤ fill.2 * fill.1.get .volume := mul_nonneg h.price_nonneg hvolume
  have hfeeValue : 0 ≤ fill.2 * fill.1.get .volume * fee := mul_nonneg hcost hfee.1
  have hbound : fill.2 * fill.1.get .volume * fee ≤ fill.2 * fill.1.get .volume * 100 :=
    mul_le_mul_of_nonneg_left hfee.2 hcost
  unfold fillOf calculateCost
  cases fill.1.action with
  | buy => exact ⟨hvolume, by simp only; linarith⟩
  | sell => exact ⟨by simp only; linarith, hvolume⟩

section Fill

variable {fill : Fill} {balances : UnorderedMap String ℕ}

/-- The gain changes one balance, exactly as long as it fits. -/
theorem Fill.gain_balance
    (hroom : balances.findOrDefault fill.gainedAsset + toIntegerVolume fill.gainValue < volumeModulus)
    (asset : String) :
    UnorderedMap.findOrDefault (fill.gain balances) asset = balances.findOrDefault asset +
      if asset = fill.gainedAsset then toIntegerVolume fill.gainValue else 0 := by
  rw [Fill.gain, UnorderedMap.findOrDefault_insert]
  split
  · next heq => rw [heq, Nat.mod_eq_of_lt hroom]
  · rfl

/-- The payment changes one balance, exactly as long as it is covered. -/
theorem Fill.sell_balance (hlt : balances.findOrDefault fill.soldAsset < volumeModulus)
    (hfunds : toIntegerVolume fill.soldValue ≤ balances.findOrDefault fill.soldAsset)
    (asset : String) :
    UnorderedMap.findOrDefault (fill.sell balances) asset = balances.findOrDefault asset -
      if asset = fill.soldAsset then toIntegerVolume fill.soldValue else 0 := by
  rw [Fill.sell, UnorderedMap.findOrDefault_insert]
  split
  · next heq =>
    rw [heq, Nat.sub_add_comm hfunds, Nat.add_mod_right, Nat.mod_eq_of_lt (by omega)]
  · rfl

/-- The two updates of a covered fill whose gain fits are exact. -/
theorem Fill.applyTo_balance (hbounded : ∀ asset, balances.findOrDefault asset < volumeModulus)
    (hroom : balances.findOrDefault fill.gainedAsset + toIntegerVolume fill.gainValue < volumeModulus)
    (hfunds : toIntegerVolume fill.soldValue ≤ balances.findOrDefault fill.soldAsset)
    (asset : String) :
    ((UnorderedMap.findOrDefault (fill.applyTo balances) asset : ℕ) : ℤ) =
      ((balances.findOrDefault asset : ℕ) : ℤ) +
        ((if asset = fill.gainedAsset then (toIntegerVolume fill.gainValue : ℤ) else 0) -
          if asset = fill.soldAsset then (toIntegerVolume fill.soldValue : ℤ) else 0) := by
  have hgain := Fill.gain_balance hroom
  have hmore : toIntegerVolume fill.soldValue ≤
      UnorderedMap.findOrDefault (fill.gain balances) fill.soldAsset := by
    rw [hgain]
    omega
  have hlt : UnorderedMap.findOrDefault (fill.gain balances) fill.soldAsset < volumeModulus := by
    rw [hgain]
    split
    · next heq => exact heq ▸ hroom
    · exact hbounded _
  rw [Fill.applyTo, Fill.sell_balance hlt hmore, hgain]
  by_cases hsold : asset = fill.soldAsset
  · subst hsold
    rw [hgain] at hmore
    simp only [if_true]
    split <;> split at hmore <;> first | contradiction | omega
  · simp only [if_neg hsold]
    split <;> omega

/-- The updated balances are below the modulus again. -/
theorem Fill.applyTo_lt (hbounded : ∀ asset, balances.findOrDefault asset < volumeModulus)
    (asset : String) : UnorderedMap.findOrDefault (fill.applyTo balances) asset < volumeModulus := by
  have hmod (n : ℕ) : n % volumeModulus < volumeModulus := Nat.mod_lt _ (by norm_num [volumeModulus])
  rw [Fill.applyTo, Fill.sell, UnorderedMap.findOrDefault_insert]
  split
  · exact hmod _
  · rw [Fill.gain, UnorderedMap.findOrDefault_insert]
    split
    · exact hmod _
    · exact hbounded _

end Fill

namespace PaperTradeApi

variable {request : OrderRequest} {api : PaperTradeApi} {fillPrice : ℚ}

/-- A covered fill sells no more than the account has. -/
theorem covers_balance (hcovers : api.covers request fillPrice = true) :
    toIntegerVolume (fillOf api.fee request fillPrice).soldValue ≤
      api.balance (fillOf api.fee request fillPrice).soldAsset := by
  unfold covers hasSufficientFunds at hcovers
  split at hcovers
  · cases hcovers
  · next stored hlookup =>
    simpa [PaperTradeApi.balance, UnorderedMap.findOrDefault, hlookup] using hcovers

/-- A fill moves every balance by its ledger entry. -/
theorem filled_balance (feed : Feed) (orderId : String) (hfee : 0 ≤ api.fee ∧ api.fee ≤ 100)
    (hbounded : ∀ asset, api.balance asset < volumeModulus)
    (hconverts : Converts api.fee (request, fillPrice))
    (hroom : api.balance (fillOf api.fee request fillPrice).gainedAsset +
      ⌊(fillOf api.fee request fillPrice).gainValue * 10 ^ 10⌋ < 2 ^ 64)
    (hcovers : api.covers request fillPrice = true) (asset : String) :
    ((api.filled feed orderId request fillPrice).balance asset : ℤ) =
      api.balance asset + ledgerEntry api.fee (request, fillPrice) asset := by
  obtain ⟨hgain, hsold⟩ := hconverts.nonneg hfee
  have hgain := toIntegerVolume_eq_floor hgain hconverts.gain_lt
  have hsold := toIntegerVolume_eq_floor hsold hconverts.sold_lt
  have hfits : api.balance (fillOf api.fee request fillPrice).gainedAsset +
      toIntegerVolume (fillOf api.fee request fillPrice).gainValue < volumeModulus := by
    rw [← hgain] at hroom
    rw [volumeModulus]
    exact_mod_cast hroom
  rw [ledgerEntry_eq, ← hgain, ← hsold]
  exact Fill.applyTo_balance hbounded hfits (covers_balance hcovers) asset

end PaperTradeApi

/-! ## Runs -/

/-- A further fill adds its ledger entry. -/
theorem ledger_concat (config : PaperTradingConfig) (fills : List FilledOrder) (fill : FilledOrder)
    (asset : String) :
    ledger config (fills ++ [fill]) asset =
      ledger config fills asset + ledgerEntry config.fee fill asset := by
  simp [ledger, add_assoc]

/-- Fills that fit did so before the last of them. -/
theorem Fits.of_concat {config : PaperTradingConfig} {fills : List FilledOrder} {fill : FilledOrder}
    (h : Fits config (fills ++ [fill])) : Fits config fills where
  converts other hother := h.converts other (List.mem_append_left _ hother)
  room before other hpart := h.room before other (hpart.trans (List.prefix_append _ _))

namespace Session

variable {s : Session} {config : PaperTradingConfig}

/-- An issued order that is filled is appended to the fills. -/
theorem fills_filled (feed : Feed) {id : String} {request : OrderRequest}
    (hrequest : s.requests.lookup id = some request) (fillPrice : ℚ) :
    ({ s with api := s.api.filled feed id request fillPrice } : Session).fills =
      s.fills ++ [(request, fillPrice)] := by
  have hid : s.requests.lookup (toOrderDescription id fillPrice feed.time request).orderId =
      some request := hrequest
  simp only [fills, PaperTradeApi.filled, List.filterMap_append, List.filterMap_cons, hid,
    Option.map_some, List.filterMap_nil]
  rfl

/-- A newly issued id is on no closed order. -/
theorem WellFormed.fills_register (h : s.WellFormed) (request : OrderRequest) :
    ({ s with
        api := s.api.register request
        requests := s.requests.insert s.api.nextOrderId request } : Session).fills = s.fills := by
  refine List.filterMap_congr fun order horder => ?_
  have hne : order.orderId ≠ s.api.nextOrderId := by
    intro heq
    exact h.nextOrderId_fresh (heq ▸ h.closed_issued (List.mem_map_of_mem horder))
  rw [Finmap.lookup_insert_of_ne _ hne]

/-- The ledger invariant. -/
structure Balanced (config : PaperTradingConfig) (s : Session) : Prop where
  fee_eq : s.api.fee = config.fee
  bounded : ∀ asset, s.api.balance asset < volumeModulus
  balance_eq : Fits config s.fills → ∀ asset, (s.api.balance asset : ℤ) = ledger config s.fills asset
  covered : Fits config s.fills → ∀ before fill, before ++ [fill] <+: s.fills →
    ⌊(fillOf config.fee fill.1 fill.2).soldValue * 10 ^ 10⌋ ≤
      ledger config before (fillOf config.fee fill.1 fill.2).soldAsset

namespace Balanced

/-- Moves that change neither balances nor fills keep the invariant. -/
theorem of_same (h : Balanced config s) {s' : Session} (hfee : s'.api.fee = s.api.fee)
    (hbalances : s'.api.balances = s.api.balances) (hfills : s'.fills = s.fills) :
    Balanced config s' := by
  have hbalance (asset : String) : s'.api.balance asset = s.api.balance asset := by
    rw [PaperTradeApi.balance, PaperTradeApi.balance, hbalances]
  constructor
  case fee_eq => exact hfee.trans h.fee_eq
  case bounded => exact fun asset => hbalance asset ▸ h.bounded asset
  case balance_eq => simpa only [hfills, hbalance] using h.balance_eq
  case covered => simpa only [hfills] using h.covered

/-- A fill that is covered keeps the invariant. -/
theorem filled (h : Balanced config s) (hfee : 0 ≤ config.fee ∧ config.fee ≤ 100) {feed : Feed}
    {id : String} {request : OrderRequest} (hrequest : s.requests.lookup id = some request)
    {fillPrice : ℚ} (hcovers : s.api.covers request fillPrice = true) :
    Balanced config { s with api := s.api.filled feed id request fillPrice } := by
  have hfills := fills_filled feed hrequest fillPrice
  constructor
  case fee_eq => exact h.fee_eq
  case bounded => exact Fill.applyTo_lt h.bounded
  case balance_eq =>
    intro hfits asset
    rw [hfills] at hfits ⊢
    have hconverts := hfits.converts (request, fillPrice) (by simp)
    have hroom := hfits.room s.fills (request, fillPrice) List.prefix_rfl
    rw [← h.fee_eq] at hfee hconverts hroom
    rw [← h.balance_eq hfits.of_concat] at hroom
    rw [ledger_concat, ← h.balance_eq hfits.of_concat, ← h.fee_eq]
    exact PaperTradeApi.filled_balance feed id hfee h.bounded hconverts hroom hcovers asset
  case covered =>
    intro hfits before fill hpart
    rw [hfills] at hfits hpart
    rcases List.prefix_concat_iff.mp hpart with heq | hpart
    · obtain ⟨rfl, hlast⟩ := List.append_inj' heq rfl
      cases List.singleton_inj.mp hlast
      have hconverts := hfits.converts (request, fillPrice) (by simp)
      rw [← h.balance_eq hfits.of_concat,
        ← toIntegerVolume_eq_floor (hconverts.nonneg hfee).2 hconverts.sold_lt, ← h.fee_eq]
      exact_mod_cast PaperTradeApi.covers_balance hcovers
    · exact h.covered hfits.of_concat before fill hpart

/-- Every call keeps the invariant. -/
theorem step (h : Balanced config s) (hwell : s.WellFormed)
    (hfee : 0 ≤ config.fee ∧ config.fee ≤ 100) (input : Feed × Call) :
    Balanced config (s.step input) := by
  apply hwell.step_induction (P := Balanced config) h
  case register =>
    exact fun s hwell h request => h.of_same rfl rfl (hwell.fills_register request)
  case evaluated =>
    intro s hwell h feed id request result api' hlookup hcase
    cases hcase with
    | noPrice | waiting | unpaid => exact h.of_same rfl rfl rfl
    | filled fillPrice htrigger hcovers =>
      exact h.filled hfee (hwell.open_request id request hlookup) hcovers
  case relisted => exact fun s h pair ids => h.of_same rfl rfl rfl
  case cancelled => exact fun s hwell h id hopen => h.of_same rfl rfl rfl

/-- Initial balances are converted amounts. -/
theorem createInitialisedBalances_lt (balances : List (String × ℚ)) (asset : String) :
    (createInitialisedBalances balances).findOrDefault asset < volumeModulus := by
  have hpos : 0 < volumeModulus := by norm_num [volumeModulus]
  refine foldl_invariant
    (I := fun map : UnorderedMap String ℕ => map.findOrDefault asset < volumeModulus) ?_ balances ?_
  · intro map item h
    unfold UnorderedMap.emplace
    split
    · exact h
    · rw [UnorderedMap.findOrDefault_insert]
      split
      · exact toIntegerVolume_lt _
      · exact h
  · rw [UnorderedMap.findOrDefault_empty]
    exact hpos

/-- A fresh session has no entries yet. -/
theorem start (config : PaperTradingConfig) : Balanced config (Session.start config) where
  fee_eq := rfl
  bounded := createInitialisedBalances_lt config.balances
  balance_eq _ asset := by
    simp [Session.start, Session.fills, PaperTradeApi.create, PaperTradeApi.balance, ledger]
  covered _ before fill hpart := by
    simp [Session.start, Session.fills, PaperTradeApi.create] at hpart

/-- Every reachable session is balanced. -/
theorem run (hfee : 0 ≤ config.fee ∧ config.fee ≤ 100) (inputs : List (Feed × Call)) :
    Balanced config (Session.run config inputs) :=
  (foldl_invariant (I := fun s : Session => s.WellFormed ∧ Balanced config s)
    (fun _ input h => ⟨h.1.step input, h.2.step h.1 hfee input⟩) inputs
    ⟨WellFormed.start config, Balanced.start config⟩).2

end Balanced

/-- A call leaves the balances below the modulus, whatever the fee is. -/
theorem WellFormed.step_balance_lt (h : s.WellFormed)
    (hbounded : ∀ asset, s.api.balance asset < volumeModulus) (input : Feed × Call) :
    ∀ asset, (s.step input).api.balance asset < volumeModulus := by
  apply h.step_induction (P := fun s => ∀ asset, s.api.balance asset < volumeModulus) hbounded
  case register => exact fun s hwell h request => h
  case evaluated =>
    intro s hwell h feed id request result api' hlookup hcase
    cases hcase with
    | noPrice | waiting | unpaid => exact h
    | filled fillPrice => exact Fill.applyTo_lt h
  case relisted => exact fun s h pair ids => h
  case cancelled => exact fun s hwell h id hopen => h

/-- Every reachable balance is below the modulus, whatever the fee is. -/
theorem run_balance_lt (config : PaperTradingConfig) (inputs : List (Feed × Call)) (asset : String) :
    (Session.run config inputs).api.balance asset < volumeModulus :=
  (foldl_invariant
    (I := fun s : Session => s.WellFormed ∧ ∀ asset, s.api.balance asset < volumeModulus)
    (fun _ input h => ⟨h.1.step input, h.1.step_balance_lt h.2 input⟩) inputs
    ⟨WellFormed.start config, Balanced.createInitialisedBalances_lt config.balances⟩).2 asset

/-- A call appends its fills to the earlier ones, and one without fills moves no balance. -/
theorem WellFormed.step_fills (h : s.WellFormed) (input : Feed × Call) :
    ∃ new, (s.step input).fills = s.fills ++ new ∧
      (new = [] → (s.step input).api.balances = s.api.balances) := by
  apply h.step_induction (P := fun s' => ∃ new, s'.fills = s.fills ++ new ∧
    (new = [] → s'.api.balances = s.api.balances)) ⟨[], by simp, fun _ => rfl⟩
  case register =>
    rintro s' hwell ⟨new, hfills, hsame⟩ request
    exact ⟨new, (hwell.fills_register request).trans hfills, hsame⟩
  case evaluated =>
    rintro s' hwell ⟨new, hfills, hsame⟩ feed id request result api' hlookup hcase
    cases hcase with
    | noPrice | waiting | unpaid => exact ⟨new, hfills, hsame⟩
    | filled fillPrice =>
      refine ⟨new ++ [(request, fillPrice)], ?_, fun hnil => absurd hnil (by simp)⟩
      rw [fills_filled feed (hwell.open_request id request hlookup), hfills, List.append_assoc]
  case relisted => exact fun s' h _ _ => h
  case cancelled => exact fun s' _ h _ _ => h

/-- In every reachable session whose fills fit: each balance is its initial value plus the ledger
entries of all fills; each fill sold at most what the account had, so no subtraction wrapped;
a call moves the balances by the entries of its own fills and without a fill not at all; and
one execution either moves every balance by its entry or, when it throws, none. -/
theorem run_ledger (config : PaperTradingConfig) (hfee : 0 ≤ config.fee ∧ config.fee ≤ 100)
    (inputs : List (Feed × Call)) (hfits : Fits config (Session.run config inputs).fills) :
    let s := Session.run config inputs
    (∀ asset, (s.api.balance asset : ℤ) = ledger config s.fills asset) ∧
    (∀ before fill, before ++ [fill] <+: s.fills →
      ⌊(fillOf config.fee fill.1 fill.2).soldValue * 10 ^ 10⌋ ≤
        ledger config before (fillOf config.fee fill.1 fill.2).soldAsset) ∧
    (∀ input, ∃ new, (s.step input).fills = s.fills ++ new ∧
      (new = [] → (s.step input).api.balances = s.api.balances) ∧
      (Fits config (s.step input).fills → ∀ asset, ((s.step input).api.balance asset : ℤ) =
        s.api.balance asset + (new.map (ledgerEntry config.fee · asset)).sum)) ∧
    (∀ (api : PaperTradeApi) feed orderId request fillPrice, api.fee = config.fee →
      (∀ asset, api.balance asset < 2 ^ 64) → Converts config.fee (request, fillPrice) →
      api.balance (fillOf config.fee request fillPrice).gainedAsset +
        ⌊(fillOf config.fee request fillPrice).gainValue * 10 ^ 10⌋ < 2 ^ 64 →
      match PaperTradeApi.executeOrder feed orderId request fillPrice api with
      | (.ok (), api') => ∀ asset, (api'.balance asset : ℤ) =
          api.balance asset + ledgerEntry config.fee (request, fillPrice) asset
      | (.error _, api') => api'.balances = api.balances) := by
  intro s
  have hbalanced := Balanced.run hfee inputs
  refine ⟨hbalanced.balance_eq hfits, hbalanced.covered hfits, ?_, ?_⟩
  · intro input
    have hwell := WellFormed.run config inputs
    obtain ⟨new, hfills, hsame⟩ := hwell.step_fills input
    refine ⟨new, hfills, hsame, fun hfits' asset => ?_⟩
    rw [(hbalanced.step hwell hfee input).balance_eq hfits', hbalanced.balance_eq hfits, hfills]
    simp [ledger, add_assoc]
  · intro api feed orderId request fillPrice hsame hbounded hconverts hroom
    rw [← hsame] at hfee hconverts hroom ⊢
    cases hcovers : api.covers request fillPrice with
    | true =>
      have hfunds := hcovers
      unfold PaperTradeApi.covers at hfunds
      simp only [PaperTradeApi.executeOrder, hfunds, Bool.not_true, Bool.false_eq_true, if_false]
      exact PaperTradeApi.filled_balance feed orderId hfee hbounded hconverts hroom hcovers
    | false =>
      unfold PaperTradeApi.covers at hcovers
      simp only [PaperTradeApi.executeOrder, hcovers, Bool.not_false, if_true]

/-- Two units are bought at 20 with a fee of ten percent, out of an account of 100. -/
theorem run_ledger_buy :
    let request := createMarketOrder ⟨"BTC", "GBP"⟩ .buy 2
    let s := Session.run ⟨10, [("GBP", 100)]⟩ [(Feed.quote 20, .addOrder request)]
    (s.api.balance "BTC" : ℤ) = 2 * 10 ^ 10 ∧ (s.api.balance "GBP" : ℤ) = 56 * 10 ^ 10 := by
  intro request s
  have hfills : s.fills = [] ++ [(request, 20)] := by decide +kernel
  have hfits : Fits ⟨10, [("GBP", 100)]⟩ s.fills := by
    rw [hfills]
    constructor
    case converts =>
      intro fill hfill
      rw [List.nil_append, List.mem_singleton] at hfill
      subst hfill
      constructor <;> decide +kernel
    case room =>
      intro before fill hpart
      rcases List.prefix_concat_iff.mp hpart with heq | hpart
      · obtain ⟨rfl, hlast⟩ := List.append_inj' heq rfl
        cases List.singleton_inj.mp hlast
        decide +kernel
      · simp at hpart
  have hledger := (run_ledger ⟨10, [("GBP", 100)]⟩ (by decide +kernel) _ hfits).1
  rw [hledger "BTC", hledger "GBP", hfills]
  decide +kernel

end Session

end MarketBlocks
