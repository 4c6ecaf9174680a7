import MarketBlocks.Exchanges.PairLists
import MarketBlocks.Exchanges.RestRequests

/-!
# Calls of the exchanges

The public functions of `market_api` and `trade_api` on the five exchanges: which requests they send, which
reader reads the answers, and what they throw before anything is sent.
-/

namespace MarketBlocks

open Library

/-- The functions of `market_api` and `trade_api`. -/
inductive RestCall where
  | getStatus
  | getTradablePairs
  | getOhlcv (pair : TradablePair) (interval : OhlcvInterval) (count : ℤ)
  | getPrice (pair : TradablePair)
  | getPrices (pairs : List TradablePair)
  | getOrderBook (pair : TradablePair) (depth : ℤ)
  | getOrderBooks (pairs : List TradablePair) (depth : ℤ)
  | account (call : PrivateCall)
  | addOrderConfirm (request : OrderRequest)

/-- What a call returns. -/
inductive RestReply where
  | status (status : ExchangeStatus)
  /-- Pairs out of an unordered container are in no particular order. -/
  | tradablePairs (pairs : Multiset TradablePair)
  | candles (candles : List OhlcvData)
  | price (price : ℚ)
  | prices (prices : UnorderedMap TradablePair ℚ)
  | orderBook (book : OrderBookState)
  | orderBooks (books : UnorderedMap TradablePair OrderBookState)
  | fee (fee : ℚ)
  | balances (balances : UnorderedMap String ℚ)
  | orders (orders : List OrderDescription)
  | orderId (orderId : String)
  | confirmation (confirmation : OrderConfirmation)
  | done

/-! ## What the exchanges share -/

/-- `not_implemented_exception` is no `mb_exception`. -/
def notImplemented {α : Type} : Rest α := throw .otherException

/-- The loop of `get_prices` and of `get_order_books` of `market_api`. -/
def getEach {α : Type} (get : TradablePair → Rest α) (pairs : List TradablePair) :
    Rest (UnorderedMap TradablePair α) :=
  pairs.foldlM (fun found pair => do
    let value ← get pair
    return UnorderedMap.emplace found pair value) ∅

/-- The pairs by their names; the first pair of a name stays. -/
def pairLookup (pairs : List TradablePair) : UnorderedMap String TradablePair :=
  collect (pairs.map fun pair => (pair.toString, pair))

/-- A name is found as that of the first pair which has it. -/
theorem lookup_pairLookup (pairs : List TradablePair) (name : String) :
    (pairLookup pairs).lookup name = pairs.find? fun pair => name = pair.toString := by
  rw [pairLookup, collect, List.foldl_map, UnorderedMap.lookup_foldl_emplace_map, Finmap.lookup_empty,
    Option.none_or, Option.map_id']

/-- The names of the lookup are those of the pairs. -/
theorem mem_pairLookup {pairs : List TradablePair} {name : String} :
    name ∈ pairLookup pairs ↔ ∃ pair ∈ pairs, pair.toString = name := by
  rw [Finmap.mem_iff, lookup_pairLookup, ← Option.isSome_iff_exists, List.find?_isSome]
  simp only [decide_eq_true_eq, @eq_comm _ name]

/-- The results by their pairs. `at` throws where a name is not that of a pair; else every name leads to one
pair, and no two to the same. -/
def createPairResultMap (pairs : List TradablePair) (namedResults : UnorderedMap String ℚ) :
    Except Fault (UnorderedMap TradablePair ℚ) :=
  if namedResults.keys ⊆ (pairLookup pairs).keys then
    .ok (collect (pairs.filterMap fun pair =>
      if (pairLookup pairs).lookup pair.toString = some pair then
        (namedResults.lookup pair.toString).map fun value => (pair, value)
      else none))
  else .error .outOfRange

/-- What an order that takes no price is given for one. -/
def noPrice : GetPrice := fun _ => .error .undefined

variable (libs : RestLibraries)

/-- Send what a private call asks for; one that asks for nothing is done. -/
def sendPrivately (request : Except Fault (Option PrivateRequest)) (sign : ℤ → PrivateRequest → HttpRequest)
    (reader : RestReader) (reply : reader.Value → RestReply) : Rest RestReply := do
  match ← request with
  | some request =>
    let value ← sendHttpRequest libs (sign · request) reader
    return reply value
  | none => return .done

/-! ## Kraken -/

namespace Kraken

/-- Kraken's `send_public_request`. -/
def sendPublicRequest (method : String) (reader : Reader) (query : RequestParameters) : Rest reader.Value :=
  let url := buildUrl baseUrl (buildKrakenPath "public" method) (urlQuery query).query
  sendHttpRequest libs (fun _ => HttpRequest.make .get url) (.kraken reader)

/-- The interval in minutes; the count is applied by the reader. -/
def getOhlcv (pair : TradablePair) (interval : OhlcvInterval) (count : ℤ) : Rest (List OhlcvData) := do
  let seconds ← secondsOf interval
  sendPublicRequest libs "OHLC" (.ohlcvData count)
    [("pair", pair.toString), ("interval", toString (seconds / 60))]

/-- `get_price` of one pair, by its name without a separator. -/
def getPrice (pair : TradablePair) : Rest ℚ :=
  sendPublicRequest libs "Ticker" .price [("pair", pair.toString)]

/-- The answer is under Kraken's names and has to be brought back to the pairs. -/
def getPrices (pairs : List TradablePair) : Rest (UnorderedMap TradablePair ℚ) := do
  let pairList ← createPairList pairs
  let namedPrices ← sendPublicRequest libs "Ticker" .prices [("pair", pairList)]
  createPairResultMap pairs namedPrices

/-- `get_order_book`, with the depth as the count. -/
def getOrderBook (pair : TradablePair) (depth : ℤ) : Rest OrderBookState :=
  sendPublicRequest libs "Depth" .orderBook [("pair", pair.toString), ("count", toString depth)]

/-- The public calls of Kraken, and its private ones. -/
def perform (api : Api) : RestCall → Rest RestReply
  | .getStatus => return .status (← sendPublicRequest libs "SystemStatus" .systemStatus [])
  | .getTradablePairs => do
    let pairs ← sendPublicRequest libs "AssetPairs" .tradablePairs []
    return .tradablePairs pairs
  | .getOhlcv pair interval count => return .candles (← getOhlcv libs pair interval count)
  | .getPrice pair => return .price (← getPrice libs pair)
  | .getPrices pairs => return .prices (← getPrices libs pairs)
  | .getOrderBook pair depth => return .orderBook (← getOrderBook libs pair depth)
  | .getOrderBooks pairs depth => return .orderBooks (← getEach (getOrderBook libs · depth) pairs)
  | .account call =>
    match call with
    | .getFee _ => send call .fee .fee
    | .getBalances => send call .balances .balances
    | .getOpenOrders => send call .openOrders .orders
    | .getClosedOrders => send call .closedOrders .orders
    | .addOrder _ => send call .addOrder .orderId
    | .cancelOrder _ => send call .cancelOrder fun _ => .done
  | .addOrderConfirm _ => notImplemented
where
  send (call : PrivateCall) (reader : Reader) (reply : reader.Value → RestReply) : Rest RestReply :=
    sendPrivately libs (privateRequest call) (sendPrivateRequest libs.security api) (.kraken reader) reply

end Kraken

/-! ## Coinbase -/

namespace Coinbase

/-- Coinbase's `send_public_request`, which sends the user agent as well. -/
def sendPublicRequest (api : Api) (path : String) (reader : Reader) (query : RequestParameters) :
    Rest reader.Value :=
  let url := buildUrl api.baseUrl path (urlQuery query).query
  sendHttpRequest libs (fun _ => sendRequest api (HttpRequest.make .get url)) (.coinbase reader)

/-- The path of an item of one product. -/
def productPath (pair : TradablePair) (item : String) : String :=
  "/products/" ++ pair.toStringWith '-' ++ "/" ++ item

/-- The interval in seconds; the count is applied by the reader. -/
def getOhlcv (api : Api) (pair : TradablePair) (interval : OhlcvInterval) (count : ℤ) :
    Rest (List OhlcvData) := do
  let seconds ← secondsOf interval
  sendPublicRequest libs api (productPath pair "candles") (.ohlcvData count)
    [("granularity", toString seconds)]

/-- `get_price`, read off the ticker. -/
def getPrice (api : Api) (pair : TradablePair) : Rest ℚ :=
  sendPublicRequest libs api (productPath pair "ticker") .price []

/-- Level 1 is the best of each side, level 2 the whole book. -/
def getOrderBook (api : Api) (pair : TradablePair) (depth : ℤ) : Rest OrderBookState :=
  let level : ℤ := if depth = 1 then 1 else 2
  sendPublicRequest libs api (productPath pair "book") (.orderBook depth) [("level", toString level)]

/-- The public calls of Coinbase, whose status is not asked for, and its private ones. -/
def perform (api : Api) : RestCall → Rest RestReply
  | .getStatus => return .status .online
  | .getTradablePairs => do
    let pairs ← sendPublicRequest libs api "/products" .tradablePairs []
    return .tradablePairs pairs
  | .getOhlcv pair interval count => return .candles (← getOhlcv libs api pair interval count)
  | .getPrice pair => return .price (← getPrice libs api pair)
  | .getPrices pairs => return .prices (← getEach (getPrice libs api) pairs)
  | .getOrderBook pair depth => return .orderBook (← getOrderBook libs api pair depth)
  | .getOrderBooks pairs depth => return .orderBooks (← getEach (getOrderBook libs api · depth) pairs)
  | .account call =>
    match call with
    | .getFee _ => send call .fee .fee
    | .getBalances => send call .balances .balances
    | .getOpenOrders => send call .orders .orders
    | .getClosedOrders => send call .orders .orders
    | .addOrder _ => send call .addOrder .orderId
    | .cancelOrder _ => send call .cancelOrder fun _ => .done
  | .addOrderConfirm _ => notImplemented
where
  send (call : PrivateCall) (reader : Reader) (reply : reader.Value → RestReply) : Rest RestReply :=
    sendPrivately libs (privateRequest libs.objectText call) (sendPrivateRequest libs.security api)
      (.coinbase reader) reply

end Coinbase

/-! ## Bybit -/

namespace Bybit

/-- Bybit's `send_public_request`. -/
def sendPublicRequest (api : Api) (path : String) (reader : Reader) (query : RequestParameters) :
    Rest reader.Value :=
  let url := buildUrl api.baseUrl path (urlQuery query).query
  sendHttpRequest libs (fun _ => HttpRequest.make .get url) (.bybit reader)

/-- The interval by its name, and the count as the limit. -/
def getOhlcv (api : Api) (pair : TradablePair) (interval : OhlcvInterval) (count : ℤ) :
    Rest (List OhlcvData) :=
  sendPublicRequest libs api "/spot/quote/v1/kline" .ohlcv
    [("symbol", pair.toString), ("interval", interval.toString), ("limit", toString count)]

/-- `get_price` of one pair. -/
def getPrice (api : Api) (pair : TradablePair) : Rest ℚ :=
  sendPublicRequest libs api "/spot/quote/v1/ticker/price" .price [("symbol", pair.toString)]

/-- `get_order_book`, with the depth as the limit. -/
def getOrderBook (api : Api) (pair : TradablePair) (depth : ℤ) : Rest OrderBookState :=
  sendPublicRequest libs api "/spot/quote/v1/depth" .orderBook
    [("symbol", pair.toString), ("limit", toString depth)]

/-- The price is asked for where `get_order_quantity` takes it. -/
def withPrice {α : Type} (api : Api) (call : PrivateCall) (next : GetPrice → Rest α) : Rest α :=
  match call with
  | .addOrder request =>
    if request.orderType = .market ∧ request.action = .buy then do
      let price ← getPrice libs api request.pair
      next fun _ => .ok price
    else next noPrice
  | _ => next noPrice

/-- The fee is the one of the configuration. -/
def perform (api : Api) (fee : ℚ) : RestCall → Rest RestReply
  | .getStatus => return .status (← sendPublicRequest libs api "spot/v1/time" .systemStatus [])
  | .getTradablePairs => do
    let pairs ← sendPublicRequest libs api "spot/v1/symbols" .tradablePairs []
    return .tradablePairs pairs
  | .getOhlcv pair interval count => return .candles (← getOhlcv libs api pair interval count)
  | .getPrice pair => return .price (← getPrice libs api pair)
  | .getPrices pairs => return .prices (← getEach (getPrice libs api) pairs)
  | .getOrderBook pair depth => return .orderBook (← getOrderBook libs api pair depth)
  | .getOrderBooks pairs depth => return .orderBooks (← getEach (getOrderBook libs api · depth) pairs)
  | .account call =>
    match call with
    | .getFee _ => return .fee fee
    | .getBalances => send call .balances .balances
    | .getOpenOrders => send call .openOrders .orders
    | .getClosedOrders => send call .closedOrders .orders
    | .addOrder _ => send call .addOrder .orderId
    | .cancelOrder _ => send call .cancelOrder fun _ => .done
  | .addOrderConfirm _ => notImplemented
where
  send (call : PrivateCall) (reader : Reader) (reply : reader.Value → RestReply) : Rest RestReply :=
    withPrice libs api call fun getPrice =>
      sendPrivately libs (privateRequest getPrice call) (sendPrivateRequest libs.security api)
        (.bybit reader) reply

end Bybit

/-! ## Digifinex -/

namespace Digifinex

/-- Digifinex's `send_public_request`. -/
def sendPublicRequest (path : String) (reader : Reader) (query : RequestParameters) : Rest reader.Value :=
  let url := buildUrl baseUrl path (urlQuery query).query
  sendHttpRequest libs (fun _ => HttpRequest.make .get url) (.digifinex reader)

/-- Days and weeks have names, and the other intervals are given in minutes. -/
def getOhlcvPeriod (interval : OhlcvInterval) : Except Fault String :=
  if interval = .d1 then .ok "1D"
  else if interval = .w1 then .ok "1W"
  else do
    let seconds ← secondsOf interval
    return toString (seconds / 60)

/-- The count is applied by the reader. -/
def getOhlcv (pair : TradablePair) (interval : OhlcvInterval) (count : ℤ) : Rest (List OhlcvData) := do
  let period ← getOhlcvPeriod interval
  sendPublicRequest libs "/kline" (.ohlcvData count)
    [("symbol", pair.toStringWith '_'), ("period", period)]

/-- `get_price`, read off the ticker. -/
def getPrice (pair : TradablePair) : Rest ℚ :=
  sendPublicRequest libs "/ticker" .price [("symbol", pair.toStringWith '_')]

/-- `get_order_book`; its path has no slash in front, and `build_url` puts one there. -/
def getOrderBook (pair : TradablePair) (depth : ℤ) : Rest OrderBookState :=
  sendPublicRequest libs "order_book" .orderBook
    [("symbol", pair.toStringWith '_'), ("limit", toString depth)]

/-- The price is asked for where `get_amount` takes it. -/
def withPrice {α : Type} (call : PrivateCall) (next : GetPrice → Rest α) : Rest α :=
  match call with
  | .addOrder request =>
    if request.orderType = .market then do
      let price ← getPrice libs request.pair
      next fun _ => .ok price
    else next noPrice
  | _ => next noPrice

/-- The public calls of Digifinex, and its private ones. -/
def perform (api : Api) : RestCall → Rest RestReply
  | .getStatus => return .status (← sendPublicRequest libs "/ping" .systemStatus [])
  | .getTradablePairs => do
    let pairs ← sendPublicRequest libs "/spot/symbols" .tradablePairs []
    return .tradablePairs pairs.val
  | .getOhlcv pair interval count => return .candles (← getOhlcv libs pair interval count)
  | .getPrice pair => return .price (← getPrice libs pair)
  | .getPrices pairs => return .prices (← getEach (getPrice libs) pairs)
  | .getOrderBook pair depth => return .orderBook (← getOrderBook libs pair depth)
  | .getOrderBooks pairs depth => return .orderBooks (← getEach (getOrderBook libs · depth) pairs)
  | .account call =>
    match call with
    | .getFee _ => return .fee (1 / 5)
    | .getBalances => send call .balances .balances
    | .getOpenOrders => send call .openOrders .orders
    | .getClosedOrders => send call .closedOrders .orders
    | .addOrder _ => send call .addOrder .orderId
    | .cancelOrder _ => send call .cancelOrder fun _ => .done
  | .addOrderConfirm _ => notImplemented
where
  send (call : PrivateCall) (reader : Reader) (reply : reader.Value → RestReply) : Rest RestReply :=
    withPrice libs call fun getPrice =>
      sendPrivately libs (privateRequest getPrice call) (sendPrivateRequest libs.security api)
        (.digifinex reader) reply

end Digifinex

/-! ## Binance -/

namespace Binance

/-- Binance's `send_public_request`. -/
def sendPublicRequest (api : Api) (path : String) (reader : Reader) (query : RequestParameters) :
    Rest reader.Value :=
  let url := buildUrl api.baseUrl path (urlQuery query).query
  sendHttpRequest libs (fun _ => HttpRequest.make .get url) (.binance reader)

/-- The interval by its name, and the count as the limit. -/
def getOhlcv (api : Api) (pair : TradablePair) (interval : OhlcvInterval) (count : ℤ) :
    Rest (List OhlcvData) :=
  sendPublicRequest libs api "/api/v3/klines" .ohlcv
    [("symbol", pair.toString), ("interval", interval.toString), ("limit", toString count)]

/-- `get_price` of one pair. -/
def getPrice (api : Api) (pair : TradablePair) : Rest ℚ :=
  sendPublicRequest libs api "/api/v3/ticker/price" .price [("symbol", pair.toString)]

/-- The names of the pairs are sent as a list in the text of the query. -/
def getPrices (api : Api) (pairs : List TradablePair) : Rest (UnorderedMap TradablePair ℚ) := do
  let symbols ← createSymbolsList pairs
  let namedPrices ← sendPublicRequest libs api "/api/v3/ticker/price" .prices [("symbols", symbols)]
  createPairResultMap pairs namedPrices

/-- `get_order_book`, with the depth as the limit. -/
def getOrderBook (api : Api) (pair : TradablePair) (depth : ℤ) : Rest OrderBookState :=
  sendPublicRequest libs api "/api/v3/depth" .orderBook
    [("symbol", pair.toString), ("limit", toString depth)]

/-- `get_open_orders` of all pairs. -/
def getOpenOrders (api : Api) : Rest (List OrderDescription) :=
  sendHttpRequest libs (sendPrivateRequest libs.security api · ⟨.get, "/api/v3/openOrders", [], ""⟩)
    (.binance .openOrders)

/-- The open orders are asked for where `cancel_order` looks for the pair. -/
def openOrdersFor (api : Api) : PrivateCall → Rest (List OrderDescription)
  | .cancelOrder _ => getOpenOrders libs api
  | _ => return []

/-- The filters that an order leaves behind for a pair without any read as none did. -/
def perform (api : Api) (orderFilters : UnorderedMap TradablePair BinanceOrderFilters) :
    RestCall → Rest (RestReply × UnorderedMap TradablePair BinanceOrderFilters)
  | .getStatus => do
    let status ← sendPublicRequest libs api "/api/v3/time" .systemStatus []
    return (.status status, orderFilters)
  | .getTradablePairs => do
    let orderFilters ← sendPublicRequest libs api "/api/v3/exchangeInfo" .tradablePairs []
    return (.tradablePairs orderFilters.keys.val, orderFilters)
  | .getOhlcv pair interval count =>
    return (.candles (← getOhlcv libs api pair interval count), orderFilters)
  | .getPrice pair => return (.price (← getPrice libs api pair), orderFilters)
  | .getPrices pairs => return (.prices (← getPrices libs api pairs), orderFilters)
  | .getOrderBook pair depth => return (.orderBook (← getOrderBook libs api pair depth), orderFilters)
  | .getOrderBooks pairs depth =>
    return (.orderBooks (← getEach (getOrderBook libs api · depth) pairs), orderFilters)
  | .account call =>
    match call with
    | .getFee _ => send call .fee .fee
    | .getBalances => send call .balances .balances
    | .getOpenOrders => send call .openOrders .orders
    | .getClosedOrders => notImplemented
    | .addOrder _ => send call .addOrder .orderId
    | .cancelOrder _ => send call .cancelOrder fun _ => .done
  | .addOrderConfirm request => send (.addOrder request) .addOrderConfirm .confirmation
where
  send (call : PrivateCall) (reader : Reader) (reply : reader.Value → RestReply) :
      Rest (RestReply × UnorderedMap TradablePair BinanceOrderFilters) := do
    let openOrders ← openOrdersFor libs api call
    let reply ← sendPrivately libs (privateRequest orderFilters openOrders call)
      (sendPrivateRequest libs.security api) (.binance reader) reply
    return (reply, orderFilters)

end Binance

/-! ## The exchanges -/

/-- An exchange, with what it keeps between two calls. -/
inductive RestApi where
  | kraken (api : Kraken.Api)
  | coinbase (api : Coinbase.Api)
  | bybit (api : Bybit.Api) (fee : ℚ)
  | digifinex (api : Digifinex.Api)
  | binance (api : Binance.Api) (orderFilters : UnorderedMap TradablePair Binance.BinanceOrderFilters)

/-- A call, and the exchange behind it. A call that throws leaves the exchange as it was. -/
def RestApi.perform (call : RestCall) : RestApi → Rest (RestReply × RestApi)
  | kraken api => return (← Kraken.perform libs api call, kraken api)
  | coinbase api => return (← Coinbase.perform libs api call, coinbase api)
  | bybit api fee => return (← Bybit.perform libs api fee call, bybit api fee)
  | digifinex api => return (← Digifinex.perform libs api call, digifinex api)
  | binance api orderFilters => do
    let (reply, orderFilters) ← Binance.perform libs api orderFilters call
    return (reply, binance api orderFilters)

end MarketBlocks
