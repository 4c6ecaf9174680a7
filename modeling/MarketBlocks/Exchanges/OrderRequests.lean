import MarketBlocks.Common.Fault
import MarketBlocks.Common.NumberText
import MarketBlocks.Trading.OrderTexts

/-!
# Orders as they are sent

`add_order` of four exchanges writes price and volume with `std::to_string`. An exchange that reads the
texts gets the numbers that were asked for when they have six digits after the point, and else others.
-/

namespace MarketBlocks

open Library

/-- The named texts of a request, as they are added to a query, a map or a JSON object. -/
abbrev RequestParameters := List (String × String)

/-- The price of a pair that the REST API reports. -/
abbrev GetPrice := TradablePair → Except Fault ℚ

/-! ## Kraken -/

namespace Kraken

/-- `to_string` of an order type. -/
def orderTypeText : OrderType → Except Fault String
  | .limit => .ok "limit"
  | .market => .ok "market"
  | .stopLoss => .ok "stop-loss"
  | .takeProfit => .ok "take-profit"
  | .trailingStopLoss => .error .otherException

/-- The query of `add_order`. -/
def addOrder (description : OrderRequest) : Except Fault RequestParameters := do
  let orderType ← orderTypeText description.orderType
  return [("pair", description.pair.toString),
    ("type", if description.action = .buy then "buy" else "sell"),
    ("ordertype", orderType),
    ("price", stdToString (description.get .assetPrice)),
    ("volume", stdToString (description.get .volume))]

end Kraken

/-! ## Coinbase -/

namespace Coinbase

/-- `to_string` of an order type. -/
def orderTypeText : OrderType → Except Fault String
  | .limit => .ok "limit"
  | .market => .ok "market"
  | .stopLoss => .ok "loss"
  | .takeProfit => .ok "entry"
  | .trailingStopLoss => .error (.mbException "Unknown order type")

/-- The JSON object of `add_order`. -/
def addOrder (description : OrderRequest) : Except Fault RequestParameters := do
  let orderType ← orderTypeText description.orderType
  return [("side", description.action.toString),
    ("product_id", description.pair.toStringWith '-'),
    ("size", stdToString (description.get .volume)),
    ("type", orderType)] ++
      if description.orderType ≠ .market then [("price", stdToString (description.get .assetPrice))]
      else []

end Coinbase

/-! ## Bybit -/

namespace Bybit

/-- Bybit's market buys are given in the second asset. -/
def getOrderQuantity (orderRequest : OrderRequest) (getPrice : GetPrice) : Except Fault ℚ :=
  let volume := orderRequest.get .volume
  if orderRequest.orderType = .market ∧ orderRequest.action = .buy then do
    return calculateCost (← getPrice orderRequest.pair) volume
  else .ok volume

/-- The parameters of `add_order`. -/
def addOrder (getPrice : GetPrice) (description : OrderRequest) : Except Fault RequestParameters := do
  let quantity ← getOrderQuantity description getPrice
  return [("symbol", description.pair.toString),
    ("qty", stdToString quantity),
    ("side", if description.action = .buy then "Buy" else "Sell"),
    ("type", if description.orderType = .market then "MARKET" else "LIMIT"),
    ("price", stdToString (description.get .assetPrice))]

end Bybit

/-! ## Digifinex -/

namespace Digifinex

/-- Digifinex knows limit and market orders only. -/
def getOrderType (orderType : OrderType) (action : TradeAction) : Except Fault String :=
  match orderType with
  | .limit => .ok (if action = .buy then "buy" else "sell")
  | .market => .ok (if action = .buy then "buy_market" else "sell_market")
  | .stopLoss | .trailingStopLoss | .takeProfit => .error (.mbException "Order type not supported")

/-- Digifinex's market orders are given in the second asset, sells included. -/
def getAmount (orderRequest : OrderRequest) (getPrice : GetPrice) : Except Fault ℚ :=
  let volume := orderRequest.get .volume
  if orderRequest.orderType = .market then do
    return calculateCost (← getPrice orderRequest.pair) volume
  else .ok volume

/-- The query of `add_order`. -/
def addOrder (getPrice : GetPrice) (description : OrderRequest) : Except Fault RequestParameters := do
  let orderType ← getOrderType description.orderType description.action
  let amount ← getAmount description getPrice
  return [("market", "spot"),
    ("symbol", description.pair.toStringWith '_'),
    ("type", orderType),
    ("amount", stdToString amount),
    ("price", stdToString (description.get .assetPrice))]

end Digifinex

/-! ## What the texts denote -/

/-- The texts of price and volume denote the numbers that were asked for. -/
def SendsExactly (sent : Except Fault RequestParameters) (priceName volumeName : String)
    (request : OrderRequest) : Prop :=
  ∃ parameters, sent = .ok parameters ∧
    (parameters.lookup priceName).bind readDecimal = some (request.get .assetPrice) ∧
    (parameters.lookup volumeName).bind readDecimal = some (request.get .volume)

/-- All four exchanges are sent the numbers that were asked for. -/
def SentExactly (getPrice : GetPrice) (request : OrderRequest) : Prop :=
  SendsExactly (Kraken.addOrder request) "price" "volume" request ∧
    SendsExactly (Coinbase.addOrder request) "price" "size" request ∧
    SendsExactly (Bybit.addOrder getPrice request) "price" "qty" request ∧
    SendsExactly (Digifinex.addOrder getPrice request) "price" "amount" request

variable {request : OrderRequest} {parameters : RequestParameters} {priceName volumeName : String}

/-- A request that writes price and volume with `std::to_string`. -/
theorem sendsExactly_iff_of_lookup
    (hprice : parameters.lookup priceName = some (stdToString (request.get .assetPrice)))
    (hvolume : parameters.lookup volumeName = some (stdToString (request.get .volume))) :
    SendsExactly (.ok parameters) priceName volumeName request ↔
      HasDigits 6 (request.get .assetPrice) ∧ HasDigits 6 (request.get .volume) := by
  rw [← readDecimal_stdToString_iff, ← readDecimal_stdToString_iff]
  constructor
  · rintro ⟨_, hsent, hprice', hvolume'⟩
    cases hsent
    rw [hprice, Option.bind_some] at hprice'
    rw [hvolume, Option.bind_some] at hvolume'
    exact ⟨hprice', hvolume'⟩
  · rintro ⟨hprice', hvolume'⟩
    refine ⟨parameters, rfl, ?_, ?_⟩
    · rwa [hprice, Option.bind_some]
    · rwa [hvolume, Option.bind_some]

/-- An exchange is sent the numbers of a limit order exactly when both have no more than six digits
after the point, on each of the four. -/
theorem sendsExactly_iff (getPrice : GetPrice) (hlimit : request.orderType = .limit) :
    (SendsExactly (Kraken.addOrder request) "price" "volume" request ↔
      HasDigits 6 (request.get .assetPrice) ∧ HasDigits 6 (request.get .volume)) ∧
    (SendsExactly (Coinbase.addOrder request) "price" "size" request ↔
      HasDigits 6 (request.get .assetPrice) ∧ HasDigits 6 (request.get .volume)) ∧
    (SendsExactly (Bybit.addOrder getPrice request) "price" "qty" request ↔
      HasDigits 6 (request.get .assetPrice) ∧ HasDigits 6 (request.get .volume)) ∧
    (SendsExactly (Digifinex.addOrder getPrice request) "price" "amount" request ↔
      HasDigits 6 (request.get .assetPrice) ∧ HasDigits 6 (request.get .volume)) := by
  refine ⟨?_, ?_, ?_, ?_⟩
  · rw [Kraken.addOrder, hlimit]
    exact sendsExactly_iff_of_lookup rfl rfl
  · rw [Coinbase.addOrder, hlimit]
    exact sendsExactly_iff_of_lookup rfl rfl
  · rw [Bybit.addOrder, Bybit.getOrderQuantity, hlimit]
    exact sendsExactly_iff_of_lookup rfl rfl
  · rw [Digifinex.addOrder, Digifinex.getAmount, hlimit]
    exact sendsExactly_iff_of_lookup rfl rfl

/-- One unit of the eighth digit is sent as zero. -/
theorem not_sentExactly :
    ¬∀ (getPrice : GetPrice) (request : OrderRequest), request.orderType = .limit →
      0 < request.get .assetPrice → 0 < request.get .volume →
      HasDigits 8 (request.get .assetPrice) → HasDigits 8 (request.get .volume) →
        SentExactly getPrice request := by
  intro hall
  obtain ⟨⟨parameters, hsent, -, hvolume⟩, -⟩ := hall (fun _ => .ok 1)
    (createLimitOrder ⟨"BTC", "USD"⟩ .buy 1 (1 / 10 ^ 8)) rfl (by decide +kernel) (by decide +kernel)
    ⟨10 ^ 8, by decide +kernel⟩ ⟨1, by decide +kernel⟩
  cases hsent
  exact absurd hvolume (by decide +kernel)

/-- A price and a volume with six digits reach all four exchanges. -/
theorem sendsExactly_buy :
    let request := createLimitOrder ⟨"BTC", "USD"⟩ .buy (1 / 4) (1 / 2)
    SendsExactly (Kraken.addOrder request) "price" "volume" request ∧
      SendsExactly (Coinbase.addOrder request) "price" "size" request ∧
      SendsExactly (Bybit.addOrder (fun _ => .ok 1) request) "price" "qty" request ∧
      SendsExactly (Digifinex.addOrder (fun _ => .ok 1) request) "price" "amount" request := by
  intro request
  have hdigits : HasDigits 6 (request.get .assetPrice) ∧ HasDigits 6 (request.get .volume) :=
    ⟨⟨250000, by decide +kernel⟩, ⟨500000, by decide +kernel⟩⟩
  have hlimit : request.orderType = .limit := rfl
  obtain ⟨hkraken, hcoinbase, hbybit, hdigifinex⟩ := sendsExactly_iff (fun _ => .ok 1) hlimit
  exact ⟨hkraken.mpr hdigits, hcoinbase.mpr hdigits, hbybit.mpr hdigits, hdigifinex.mpr hdigits⟩

end MarketBlocks
