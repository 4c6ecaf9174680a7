import MarketBlocks.Common.Fault
import MarketBlocks.Trading.Market
import MarketBlocks.Websockets.Subscription
import Mathlib.Algebra.Order.Ring.Unbundled.Rat
import Mathlib.Data.Rat.Lemmas

/-!
# The paper trading account

`paper_trade_api` keeps an order in up to four containers: the open orders by id, the id
list of its pair, the trailing limits and finally the closed orders. The id list is cleaned
lazily, by the walk over it that every trade update makes. A call that throws leaves the
state as it is at the throw, so each function returns its result beside the state.

Balances are `unsigned long long` multiples of `10⁻¹⁰` and wrap modulo `2⁶⁴`. The order
counter is unbounded here, where the `int` of the source is undefined past `2³¹ - 1`.
-/

namespace MarketBlocks

open Library

/-- `VolumeModifier`, that is `10` to the `VolumePrecision`. -/
def volumeModifier : ℚ := 10 ^ 10

/-- The modulus of `volume_t`. -/
def volumeModulus : ℕ := 2 ^ 64

/-- `to_integer_volume`: the conversion to `volume_t` truncates towards zero. Outside the
range of `volume_t`, where the conversion is undefined, the value is reduced. -/
def toIntegerVolume (volume : ℚ) : ℕ :=
  let scaled := volume * volumeModifier
  (scaled.num.tdiv scaled.den % volumeModulus).toNat

/-- `paper_trading_config`. -/
structure PaperTradingConfig where
  fee : ℚ
  /-- The entries of the configured map in its iteration order. -/
  balances : List (String × ℚ)

/-- `create_initialised_balances`, through the `emplace` loop of `to_unordered_map`. -/
def createInitialisedBalances (initialBalances : List (String × ℚ)) : UnorderedMap String ℕ :=
  initialBalances.foldl (fun map item => map.emplace item.1 (toIntegerVolume item.2)) ∅

/-- `paper_trade_api`, without the stream, whose part in a call is its `Feed`. -/
structure PaperTradeApi where
  fee : ℚ
  trailingOrderLimits : UnorderedMap String ℚ
  balances : UnorderedMap String ℕ
  openOrders : UnorderedMap String OrderRequest
  openOrdersByPair : UnorderedMap TradablePair (List String)
  closedOrders : List OrderDescription
  nextOrderNumber : ℕ

/-- What the account reads of its stream and its clock while one call runs. -/
structure Feed where
  lastTrade : TradablePair → TradeUpdate
  tradeStatus : TradablePair → SubscriptionStatus
  time : ℤ

/-- The price that `get_last_trade` reports, zero when there is no trade. -/
def Feed.price (feed : Feed) (pair : TradablePair) : ℚ := (feed.lastTrade pair).price

/-- A stream that is subscribed to every pair and quotes one price for all of them. -/
def Feed.quote (price : ℚ) (time : ℤ := 0) : Feed where
  lastTrade := fun _ => { timeStamp := time, price, volume := 1 }
  tradeStatus := fun _ => .subscribed
  time := time

namespace PaperTradeApi

/-- The constructor. -/
def create (config : PaperTradingConfig) : PaperTradeApi where
  fee := config.fee
  trailingOrderLimits := ∅
  balances := createInitialisedBalances config.balances
  openOrders := ∅
  openOrdersByPair := ∅
  closedOrders := []
  nextOrderNumber := 1

end PaperTradeApi

/-- `should_close_limit_order`. -/
def shouldCloseLimitOrder (request : OrderRequest) (currentPrice : ℚ) : Bool :=
  let orderPrice := request.get .assetPrice
  (request.action = .buy && currentPrice ≤ orderPrice) ||
    (request.action = .sell && currentPrice ≥ orderPrice)

/-- `should_close_stop_loss_order`. -/
def shouldCloseStopLossOrder (request : OrderRequest) (currentPrice : ℚ) : Bool :=
  let orderPrice := request.get .stopPrice
  (request.action = .buy && currentPrice ≥ orderPrice) ||
    (request.action = .sell && currentPrice ≤ orderPrice)

/-- The decision together with the new value of the reference `maxOrMin`. -/
def shouldCloseTrailingStopLossOrder (request : OrderRequest) (currentPrice maxOrMin : ℚ) :
    Bool × ℚ :=
  let delta := request.get .trailingDelta
  if request.action = .buy then
    let maxOrMin := min maxOrMin currentPrice
    (currentPrice ≥ maxOrMin * (1 + delta), maxOrMin)
  else
    let maxOrMin := max maxOrMin currentPrice
    (currentPrice ≤ maxOrMin * (1 - delta), maxOrMin)

/-- The description of an order at a price and a time. -/
def toOrderDescription (orderId : String) (fillPrice : ℚ) (time : ℤ) (request : OrderRequest) :
    OrderDescription where
  timeStamp := time
  orderId := orderId
  orderType := request.orderType
  pairName := request.pair.toString
  action := request.action
  price := fillPrice
  volume := request.get .volume

/-- What one fill exchanges, before the conversion to integer volumes. -/
structure Fill where
  gainedAsset : String
  soldAsset : String
  gainValue : ℚ
  soldValue : ℚ

/-- The amounts that `execute_order` computes from the fee, the order and the fill price. -/
def fillOf (fee : ℚ) (request : OrderRequest) (fillPrice : ℚ) : Fill :=
  let volume := request.get .volume
  let cost := calculateCost fillPrice volume
  let feeValue := cost * fee * (1 / 100)
  match request.action with
  | .buy =>
    { gainedAsset := request.pair.asset, soldAsset := request.pair.priceUnit,
      gainValue := volume, soldValue := cost + feeValue }
  | .sell =>
    { gainedAsset := request.pair.priceUnit, soldAsset := request.pair.asset,
      gainValue := cost - feeValue, soldValue := volume }

/-- `_balances[gainedAsset] += gainVolume`, in `unsigned long long` arithmetic. -/
def Fill.gain (fill : Fill) (balances : UnorderedMap String ℕ) : UnorderedMap String ℕ :=
  balances.insert fill.gainedAsset
    ((balances.findOrDefault fill.gainedAsset + toIntegerVolume fill.gainValue) % volumeModulus)

/-- `_balances[soldAsset] -= soldVolume`, in `unsigned long long` arithmetic. -/
def Fill.sell (fill : Fill) (balances : UnorderedMap String ℕ) : UnorderedMap String ℕ :=
  balances.insert fill.soldAsset
    ((balances.findOrDefault fill.soldAsset + volumeModulus - toIntegerVolume fill.soldValue) %
      volumeModulus)

/-- The two updates of `_balances` in `execute_order`. -/
def Fill.applyTo (fill : Fill) (balances : UnorderedMap String ℕ) : UnorderedMap String ℕ :=
  fill.sell (fill.gain balances)

namespace PaperTradeApi

/-- `has_sufficient_funds`; an asset without an account has none. -/
def hasSufficientFunds (api : PaperTradeApi) (asset : String) (amount : ℕ) : Bool :=
  match api.balances.lookup asset with
  | none => false
  | some balance => amount ≤ balance

/-- `execute_order`. -/
def executeOrder (feed : Feed) (orderId : String) (request : OrderRequest) (fillPrice : ℚ)
    (api : PaperTradeApi) : Except Fault Unit × PaperTradeApi :=
  let fill := fillOf api.fee request fillPrice
  if !api.hasSufficientFunds fill.soldAsset (toIntegerVolume fill.soldValue) then
    (.error (.insufficientFunds fill.soldAsset), api)
  else
    (.ok (), { api with
      balances := fill.applyTo api.balances
      closedOrders := api.closedOrders ++ [toOrderDescription orderId fillPrice feed.time request]
      openOrders := api.openOrders.erase orderId })

/-- The `switch` of `try_fill_order`: the fill price, or `none` for `fill = false`, and the
trailing limits it leaves behind. -/
def selectFill (orderId : String) (request : OrderRequest) (price : ℚ)
    (limits : UnorderedMap String ℚ) : Option ℚ × UnorderedMap String ℚ :=
  match request.orderType with
  | .market => (some price, limits)
  | .limit =>
    (if shouldCloseLimitOrder request price then some (request.get .assetPrice) else none, limits)
  | .stopLoss =>
    (if shouldCloseStopLossOrder request price then some (request.get .stopPrice) else none, limits)
  | .trailingStopLoss =>
    let limits := UnorderedMap.emplace limits orderId price
    let (fill, maxOrMin) :=
      shouldCloseTrailingStopLossOrder request price (UnorderedMap.findOrDefault limits orderId)
    let limits := limits.insert orderId maxOrMin
    if fill then (some price, limits.erase orderId) else (none, limits)
  | .takeProfit => (none, limits)

/-- `try_fill_order`; without a price there is nothing to fill at. -/
def tryFillOrder (feed : Feed) (orderId : String) (api : PaperTradeApi) :
    Except Fault Bool × PaperTradeApi :=
  match api.openOrders.lookup orderId with
  | none => (.error .outOfRange, api)
  | some request =>
    let price := feed.price request.pair
    if price = 0 then (.ok false, api)
    else
      let (fillPrice, limits) := selectFill orderId request price api.trailingOrderLimits
      let api := { api with trailingOrderLimits := limits }
      match fillPrice with
      | none => (.ok false, api)
      | some fillPrice =>
        match executeOrder feed orderId request fillPrice api with
        | (.error fault, api) => (.error fault, api)
        | (.ok (), api) => (.ok true, api)

/-- The id list of a pair, empty before its first order. -/
def orderIds (api : PaperTradeApi) (pair : TradablePair) : List String :=
  api.openOrdersByPair.findOrDefault pair

/-- Replace the id list of a pair. -/
def setOrderIds (api : PaperTradeApi) (pair : TradablePair) (ids : List String) : PaperTradeApi :=
  { api with openOrdersByPair := api.openOrdersByPair.insert pair ids }

/-- The loop of `trade_update_handler`, with `remaining` iterations to go and the vector
position `index`. The list `evaluated` records the ids given to `try_fill_order`; nothing
reads it but statements about the loop. -/
def tradeUpdateLoop (feed : Feed) (pair : TradablePair) :
    ℕ → ℕ → List String → PaperTradeApi → Except Fault Unit × List String × PaperTradeApi
  | 0, _, evaluated, api => (.ok (), evaluated, api)
  | remaining + 1, index, evaluated, api =>
    match (api.orderIds pair)[index]? with
    | none => (.error .undefined, evaluated, api)
    | some id =>
      if id ∉ api.openOrders then
        tradeUpdateLoop feed pair remaining index evaluated
          (api.setOrderIds pair ((api.orderIds pair).eraseIdx index))
      else
        match tryFillOrder feed id api with
        | (.error fault, api) => (.error fault, evaluated ++ [id], api)
        | (.ok true, api) =>
          tradeUpdateLoop feed pair remaining index (evaluated ++ [id])
            (api.setOrderIds pair ((api.orderIds pair).eraseIdx index))
        | (.ok false, api) =>
          tradeUpdateLoop feed pair remaining (index + 1) (evaluated ++ [id]) api

/-- `trade_update_handler` with the record of its evaluations. The list of the pair is
created when it is missing. -/
def tradeUpdateTrace (feed : Feed) (pair : TradablePair) (api : PaperTradeApi) :
    Except Fault Unit × List String × PaperTradeApi :=
  let api := api.setOrderIds pair (api.orderIds pair)
  tradeUpdateLoop feed pair (api.orderIds pair).length 0 [] api

/-- `trade_update_handler`. -/
def tradeUpdateHandler (feed : Feed) (pair : TradablePair) (api : PaperTradeApi) :
    Except Fault Unit × PaperTradeApi :=
  let (result, _, api) := tradeUpdateTrace feed pair api
  (result, api)

/-- The id that the next order gets. -/
def nextOrderId (api : PaperTradeApi) : String := api.nextOrderNumber.repr

/-- The part of `add_order` before the fill: count, store and list the order. -/
def register (request : OrderRequest) (api : PaperTradeApi) : PaperTradeApi :=
  { api with
    nextOrderNumber := api.nextOrderNumber + 1
    openOrders := UnorderedMap.emplace api.openOrders api.nextOrderId request
    openOrdersByPair := api.openOrdersByPair.insert request.pair
      (api.orderIds request.pair ++ [api.nextOrderId]) }

/-- The subscription that `add_order` asks of its stream before it tries the fill. -/
def subscriptionFor (feed : Feed) (request : OrderRequest) : Option WebsocketSubscription :=
  if feed.tradeStatus request.pair = .unsubscribed then
    some (.createTradeSub [request.pair])
  else none

/-- `add_order`, whose subscription is taken to return. (`StreamThread.addOrder` is given what it
answers.) -/
def addOrder (feed : Feed) (request : OrderRequest) (api : PaperTradeApi) :
    Except Fault String × PaperTradeApi :=
  let orderId := api.nextOrderId
  match tryFillOrder feed orderId (api.register request) with
  | (.error fault, api) => (.error fault, api)
  | (.ok _, api) => (.ok orderId, api)

/-- `add_order_confirm`, which reports the last price, not that of the fill. -/
def addOrderConfirm (feed : Feed) (request : OrderRequest) (api : PaperTradeApi) :
    Except Fault OrderConfirmation × PaperTradeApi :=
  match addOrder feed request api with
  | (.error fault, api) => (.error fault, api)
  | (.ok orderId, api) =>
    (.ok { orderId, orderStatus := .closed, originalQty := request.get .volume,
           filledQty := request.get .volume, price := feed.price request.pair }, api)

/-- `cancel_order`. -/
def cancelOrder (orderId : String) (api : PaperTradeApi) : Except Fault Unit × PaperTradeApi :=
  if orderId ∈ api.openOrders then
    (.ok (), { api with openOrders := api.openOrders.erase orderId })
  else (.error (.orderNotFound orderId), api)

/-- `get_order_status`: every order that is not open is reported closed. -/
def getOrderStatus (orderId : String) (api : PaperTradeApi) : OrderStatus :=
  if orderId ∈ api.openOrders then OrderStatus.open else .closed

/-- `get_balances`, the whole map. -/
def balanceMap (api : PaperTradeApi) : UnorderedMap String ℚ :=
  UnorderedMap.mapEntries (fun _ (balance : ℕ) => (balance : ℚ) / volumeModifier) api.balances

/-- `get_fee`, the same for all pairs. -/
def getFee (_tradablePair : TradablePair) (api : PaperTradeApi) : ℚ := api.fee

/-- `get_open_orders`: the descriptions by id, which the vector lists in the order of the map. -/
def getOpenOrders (feed : Feed) (api : PaperTradeApi) : UnorderedMap String OrderDescription :=
  UnorderedMap.mapEntries
    (fun orderId request => toOrderDescription orderId (request.get .assetPrice) feed.time request)
    api.openOrders

end PaperTradeApi

end MarketBlocks
