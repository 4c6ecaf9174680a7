import MarketBlocks.Library.UnorderedMap
import Mathlib.Data.Rat.Defs

/-!
# Pairs and orders

The value types of `trading/`: tradable pairs, order requests with their parameter map,
and the descriptions and confirmations handed back to a strategy. Prices and volumes are
the exact rational values of the doubles.
-/

namespace MarketBlocks

open Library

/-- `trade_action`. -/
inductive TradeAction where
  | sell
  | buy
  deriving DecidableEq, Repr

/-- `order_status`. -/
inductive OrderStatus where
  | «open»
  | closed
  | partiallyFilled
  | cancelled
  deriving DecidableEq, Repr

/-- `order_type`. -/
inductive OrderType where
  | market
  | limit
  | stopLoss
  | trailingStopLoss
  | takeProfit
  deriving DecidableEq, Repr

/-- An asset and the unit its price is given in. -/
structure TradablePair where
  asset : String
  priceUnit : String
  deriving DecidableEq, Repr

/-- `to_string()`: the two names run together. -/
def TradablePair.toString (pair : TradablePair) : String := pair.asset ++ pair.priceUnit

/-- `to_string(separator)`; the null character stands for no separator. -/
def TradablePair.toStringWith (pair : TradablePair) (separator : Char) : String :=
  if separator = Char.ofNat 0 then pair.toString
  else pair.asset ++ separator.toString ++ pair.priceUnit

/-- `order_request_parameter`. -/
inductive OrderRequestParameter where
  | assetPrice
  | stopPrice
  | volume
  | trailingDelta
  deriving DecidableEq, Repr

/-- `order_request`. -/
structure OrderRequest where
  orderType : OrderType
  pair : TradablePair
  action : TradeAction
  parameters : UnorderedMap OrderRequestParameter ℚ
  deriving DecidableEq

/-- A parameter that was not given reads as zero. -/
def OrderRequest.get (request : OrderRequest) (parameter : OrderRequestParameter) : ℚ :=
  request.parameters.findOrDefault parameter

/-- `create_limit_order`. -/
def createLimitOrder (pair : TradablePair) (action : TradeAction) (assetPrice volume : ℚ) :
    OrderRequest :=
  { orderType := .limit, pair, action,
    parameters := ((∅ : UnorderedMap _ _).insert .assetPrice assetPrice).insert .volume volume }

/-- `create_market_order`. -/
def createMarketOrder (pair : TradablePair) (action : TradeAction) (volume : ℚ) : OrderRequest :=
  { orderType := .market, pair, action,
    parameters := (∅ : UnorderedMap _ _).insert .volume volume }

/-- `create_stop_loss_order`; without a limit price the parameter is 0. -/
def createStopLossOrder (pair : TradablePair) (action : TradeAction) (stopPrice volume : ℚ)
    (limitPrice : ℚ := 0) : OrderRequest :=
  { orderType := .stopLoss, pair, action,
    parameters := (((∅ : UnorderedMap _ _).insert .volume volume).insert .stopPrice stopPrice).insert
      .assetPrice limitPrice }

/-- `create_trailing_stop_loss_order`; without a limit price the parameter is 0. -/
def createTrailingStopLossOrder (pair : TradablePair) (action : TradeAction) (delta volume : ℚ)
    (limitPrice : ℚ := 0) : OrderRequest :=
  { orderType := .trailingStopLoss, pair, action,
    parameters := (((∅ : UnorderedMap _ _).insert .volume volume).insert .trailingDelta delta).insert
      .assetPrice limitPrice }

/-- `order_description`. -/
structure OrderDescription where
  timeStamp : ℤ
  orderId : String
  orderType : OrderType
  pairName : String
  action : TradeAction
  price : ℚ
  volume : ℚ
  deriving DecidableEq, Repr

/-- `order_confirmation`. -/
structure OrderConfirmation where
  orderId : String
  orderStatus : OrderStatus
  originalQty : ℚ
  filledQty : ℚ
  price : ℚ
  deriving DecidableEq, Repr

/-- `calculate_cost`. -/
def calculateCost (assetPrice volume : ℚ) : ℚ := assetPrice * volume

end MarketBlocks
