import MarketBlocks.Exchanges.BinanceResults
import MarketBlocks.Exchanges.OrderRequests

/-!
# Orders of Binance

`create_order_query` writes the quantity with the precision that the filters of the pair prescribe. The
stream rounds it, so that it is the nearest quantity of that precision and may be more than was asked
for.
-/

namespace MarketBlocks.Binance

open Library

/-- The filters of a pair for which none were loaded. -/
def defaultOrderFilters : BinanceOrderFilters where
  pricePrecision := 2
  qtyPrecision := 4
  minQty := 1 / 100000
  minValue := 10

/-- `to_order_side`. -/
def toOrderSide (action : TradeAction) : String := if action = .buy then "BUY" else "SELL"

/-- `to_order_type_str`. -/
def toOrderTypeStr : OrderType → Except Fault String
  | .limit => .ok "LIMIT"
  | .market => .ok "MARKET"
  | .stopLoss | .trailingStopLoss => .ok "STOP_LOSS_LIMIT"
  | .takeProfit => .error (.mbException "Order type not supported")

/-- `is_limit_order`: the types that are sent with a price. -/
def isLimitOrder (orderType : OrderType) : Bool :=
  orderType = .limit || orderType = .stopLoss || orderType = .trailingStopLoss

/-- The parameters of an order in the precision of its filters. -/
def createOrderQuery (request : OrderRequest) (filters : BinanceOrderFilters) :
    Except Fault RequestParameters := do
  let orderType ← toOrderTypeStr request.orderType
  let query : RequestParameters :=
    [("symbol", request.pair.toString),
      ("side", toOrderSide request.action),
      ("type", orderType),
      ("quantity", toStringWithPrecision (request.get .volume) filters.qtyPrecision)]
  let limit : RequestParameters :=
    if isLimitOrder request.orderType then
      [("price", toStringWithPrecision (request.get .assetPrice) filters.pricePrecision),
        ("timeInForce", "GTC")]
    else []
  let trigger : RequestParameters := match request.orderType with
    | .stopLoss => [("stopPrice", toStringWithPrecision (request.get .stopPrice) filters.pricePrecision)]
    | .trailingStopLoss =>
      -- the cast to an integer cuts the fraction off
      let delta := request.get .trailingDelta * 10000
      [("trailingDelta", toString (delta.num.tdiv delta.den))]
    | .market | .limit | .takeProfit => []
  return query ++ limit ++ trigger

/-- The filters that an order of a pair finds. -/
def filtersOf (orderFilters : UnorderedMap TradablePair BinanceOrderFilters) (pair : TradablePair) :
    BinanceOrderFilters :=
  (orderFilters.lookup pair).getD defaultOrderFilters

/-- The query of `add_order` and of `add_order_confirm`. -/
def addOrder (orderFilters : UnorderedMap TradablePair BinanceOrderFilters) (request : OrderRequest) :
    Except Fault RequestParameters :=
  createOrderQuery request (filtersOf orderFilters request.pair)

/-- The quantity is the multiple of the unit below the volume. -/
def OrdersAtMost (sent : Except Fault RequestParameters) (d : ℕ) (volume : ℚ) : Prop :=
  ∀ parameters, sent = .ok parameters → ∃ n : ℤ,
    (parameters.lookup "quantity").bind readDecimal = some ((n : ℚ) / 10 ^ d) ∧
      (n : ℚ) / 10 ^ d ≤ volume ∧ volume < (n : ℚ) / 10 ^ d + 1 / 10 ^ d

/-- The quantity is a multiple of the unit that is nearest to the volume, and the volume itself when
that is one. -/
def OrdersNearest (sent : Except Fault RequestParameters) (d : ℕ) (volume : ℚ) : Prop :=
  ∀ parameters, sent = .ok parameters → ∃ n : ℤ,
    (parameters.lookup "quantity").bind readDecimal = some ((n : ℚ) / 10 ^ d) ∧
      |(n : ℚ) / 10 ^ d - volume| ≤ 1 / 2 / 10 ^ d ∧ (HasDigits d volume → (n : ℚ) / 10 ^ d = volume)

variable {request : OrderRequest} {filters : BinanceOrderFilters} {parameters : RequestParameters}

/-- The fourth parameter is the quantity, whatever the type of the order. -/
theorem lookup_quantity (h : createOrderQuery request filters = .ok parameters) :
    parameters.lookup "quantity" =
      some (toStringWithPrecision (request.get .volume) filters.qtyPrecision) := by
  rw [createOrderQuery] at h
  cases htype : toOrderTypeStr request.orderType with
  | error fault =>
    rw [htype] at h
    cases h
  | ok orderType =>
    rw [htype] at h
    cases h
    rfl

/-- The quantity that Binance is sent is the nearest one of the precision of its filters. -/
theorem ordersNearest (orderFilters : UnorderedMap TradablePair BinanceOrderFilters)
    (request : OrderRequest) (hprecision : 0 ≤ (filtersOf orderFilters request.pair).qtyPrecision) :
    OrdersNearest (addOrder orderFilters request)
      (filtersOf orderFilters request.pair).qtyPrecision.toNat (request.get .volume) := by
  intro parameters hsent
  have hquantity := lookup_quantity hsent
  generalize filtersOf orderFilters request.pair = filters at hprecision hquantity
  obtain ⟨n, hn⟩ := exists_fixedValue_eq filters.qtyPrecision.toNat (request.get .volume)
  refine ⟨n, ?_, ?_, ?_⟩
  · rw [hquantity, Option.bind_some, toStringWithPrecision, if_neg (not_lt.mpr hprecision),
      readDecimal_fixedText, hn]
  · rw [← hn]
    exact abs_fixedValue_sub_le _ _
  · intro hdigits
    rw [← hn]
    exact fixedValue_eq_iff.mpr hdigits

/-- More is sold than there is. -/
theorem not_ordersAtMost :
    ¬∀ (orderFilters : UnorderedMap TradablePair BinanceOrderFilters) (request : OrderRequest),
      0 < request.get .volume → 0 ≤ (filtersOf orderFilters request.pair).qtyPrecision →
        OrdersAtMost (addOrder orderFilters request)
          (filtersOf orderFilters request.pair).qtyPrecision.toNat (request.get .volume) := by
  intro hall
  have hprecision :
      (filtersOf ∅ (createMarketOrder ⟨"BTC", "USDT"⟩ .sell (6 / 100000)).pair).qtyPrecision = 4 := by
    decide +kernel
  have hvolume : (createMarketOrder ⟨"BTC", "USDT"⟩ .sell (6 / 100000)).get .volume = 6 / 100000 := by
    decide +kernel
  have hread : readDecimal (toStringWithPrecision (6 / 100000) 4) = some (1 / 10000) := by
    decide +kernel
  obtain ⟨parameters, hsent⟩ : ∃ parameters,
      addOrder ∅ (createMarketOrder ⟨"BTC", "USDT"⟩ .sell (6 / 100000)) = .ok parameters := ⟨_, rfl⟩
  obtain ⟨n, hquantity, hle, -⟩ := hall ∅ (createMarketOrder ⟨"BTC", "USDT"⟩ .sell (6 / 100000))
    (by decide +kernel) (by decide +kernel) parameters hsent
  rw [lookup_quantity hsent, Option.bind_some, hvolume, hprecision, hread] at hquantity
  rw [hvolume, hprecision, ← Option.some.inj hquantity] at hle
  exact absurd hle (by decide +kernel)

/-- Without filters a quantity of six hundred-thousandths has four digits. -/
theorem ordersNearest_default :
    OrdersNearest (addOrder ∅ (createMarketOrder ⟨"BTC", "USDT"⟩ .sell (6 / 100000)))
      (filtersOf ∅ ⟨"BTC", "USDT"⟩).qtyPrecision.toNat
      ((createMarketOrder ⟨"BTC", "USDT"⟩ .sell (6 / 100000)).get .volume) :=
  ordersNearest ∅ (createMarketOrder ⟨"BTC", "USDT"⟩ .sell (6 / 100000)) (by decide +kernel)

end MarketBlocks.Binance
