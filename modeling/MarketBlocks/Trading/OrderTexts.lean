import MarketBlocks.Trading.Orders

/-!
# Names of actions and order types
-/

namespace MarketBlocks

/-- `to_string`. -/
def TradeAction.toString : TradeAction → String
  | .buy => "buy"
  | .sell => "sell"

/-- `to_string`. -/
def OrderType.toString : OrderType → String
  | .market => "MARKET"
  | .limit => "LIMIT"
  | .stopLoss => "STOP_LOSS"
  | .trailingStopLoss => "TRAILING_STOP_LOSS"
  | .takeProfit => "TAKE_PROFIT"

end MarketBlocks
