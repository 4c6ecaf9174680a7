import MarketBlocks.Common.Hash
import MarketBlocks.Exchanges.BinanceOrders
import MarketBlocks.Library.OrderedSet
import MarketBlocks.Networking.HttpRequest

/-!
# Private requests

What the private calls of the five exchanges send: `send_private_request` with the signature that
`compute_api_sign` makes. Binance and Bybit put the signature behind the parameters, the others into the
headers; Kraken and Coinbase decode their secret when the API is created.
-/

namespace MarketBlocks

open Library

/-- The private calls of an exchange. -/
inductive PrivateCall where
  | getFee (pair : TradablePair)
  | getBalances
  | getOpenOrders
  | getClosedOrders
  | addOrder (request : OrderRequest)
  | cancelOrder (orderId : String)

/-- The arguments of `send_private_request`. -/
structure PrivateRequest where
  verb : HttpVerb
  path : String
  parameters : RequestParameters
  content : String

/-- The third-party functions of a signature. -/
structure Security where
  openSsl : OpenSsl
  bio : Base64Bio

/-! ## Kraken -/

namespace Kraken

/-- Kraken's address. -/
def baseUrl : String := "https://api.kraken.com"

/-- `build_kraken_path`. -/
def buildKrakenPath (access method : String) : String := "/0/" ++ access ++ "/" ++ method

/-- The keys of a Kraken client, the private one decoded. -/
structure Api where
  publicKey : String
  decodedPrivateKey : List UInt8

/-- The constructor, which decodes the private key. -/
def create (security : Security) (publicKey privateKey : String) : Except Fault Api := do
  let decodedPrivateKey ← b64Decode security.bio privateKey
  return { publicKey, decodedPrivateKey }

/-- HMAC-SHA512 of the path and the hash of nonce and data. -/
def computeApiSign (security : Security) (api : Api) (uriPath urlPostData nonce : String) : String :=
  let noncePostData := sha256 security.openSsl (textBytes (nonce ++ urlPostData))
  let message := textBytes uriPath ++ noncePostData
  b64Encode security.bio (hmacSha512 security.openSsl message api.decodedPrivateKey)

/-- The path of the request is the method. -/
def sendPrivateRequest (security : Security) (api : Api) (nonce : ℤ) (request : PrivateRequest) :
    HttpRequest :=
  let query := (urlQuery request.parameters).query
  let postData := "nonce=" ++ toString nonce
  let postData := if query ≠ "" then postData ++ "&" ++ query else postData
  let apiPath := buildKrakenPath "private" request.path
  let apiSign := computeApiSign security api apiPath postData (toString nonce)
  let url := buildUrl baseUrl apiPath ""
  (HttpRequest.make .post url).addHeader "API-Key" api.publicKey
    |>.addHeader "API-Sign" apiSign
    |>.addHeader "Content-Type" "application/x-www-form-urlencoded"
    |>.addHeader "Accept" "application/json"
    |>.setContent postData

/-- The requests of the private calls. -/
def privateRequest (call : PrivateCall) : Except Fault (Option PrivateRequest) :=
  let ask (method : String) (parameters : RequestParameters) : Except Fault (Option PrivateRequest) :=
    .ok (some ⟨.post, method, parameters, ""⟩)
  match call with
  | .getFee pair => ask "TradeVolume" [("pair", pair.toString)]
  | .getBalances => ask "Balance" []
  | .getOpenOrders => ask "OpenOrders" []
  | .getClosedOrders => ask "ClosedOrders" []
  | .addOrder request => do
    let parameters ← addOrder request
    ask "AddOrder" parameters
  | .cancelOrder orderId => ask "CancelOrder" [("txid", orderId)]

example (security : Security) (api : Api) :
    (sendPrivateRequest security api 1 ⟨.post, "CancelOrder", [("txid", "123456789")], ""⟩).content =
      "nonce=1&txid=123456789" := by
  rfl

end Kraken

/-! ## Coinbase -/

namespace Coinbase

/-- Coinbase's address. -/
def liveBaseUrl : String := "https://api.exchange.coinbase.com"

/-- Coinbase's address for tests. -/
def sandboxBaseUrl : String := "https://api-public.sandbox.exchange.coinbase.com"

/-- The keys of a Coinbase client, the secret decoded. -/
structure Api where
  baseUrl : String
  userAgentId : String
  apiKey : String
  decodedApiSecret : List UInt8
  apiPassphrase : String

/-- The constructor, which decodes the secret. -/
def create (security : Security) (enableTesting : Bool) (userAgentId : ℤ)
    (apiKey apiSecret apiPassphrase : String) : Except Fault Api := do
  let decodedApiSecret ← b64Decode security.bio apiSecret
  return { baseUrl := if enableTesting then sandboxBaseUrl else liveBaseUrl
           userAgentId := toString userAgentId, apiKey, decodedApiSecret, apiPassphrase }

/-- HMAC-SHA256 of the time, the verb, the path with its query, and the body. -/
def computeAccessSign (security : Security) (api : Api) (timestamp : String) (httpVerb : HttpVerb)
    (path query body : String) : String :=
  let message := appendQuery (timestamp ++ httpVerb.toString ++ path) query ++ body
  b64Encode security.bio (hmacSha256 security.openSsl (textBytes message) api.decodedApiSecret)

/-- `send_request`. -/
def sendRequest (api : Api) (request : HttpRequest) : HttpRequest :=
  (request.addHeader "User-Agent" api.userAgentId).addHeader "Accept" "application/json"

/-- The parameters go into the query, and the content is a body of JSON. -/
def sendPrivateRequest (security : Security) (api : Api) (timestamp : ℤ) (request : PrivateRequest) :
    HttpRequest :=
  let query := (urlQuery request.parameters).query
  let httpRequest := HttpRequest.make request.verb (buildUrl api.baseUrl request.path query)
  let httpRequest := if request.content ≠ "" then
      (httpRequest.setContent request.content).addHeader "Content-Type" "application/json"
    else httpRequest
  httpRequest.addHeader "CB-ACCESS-KEY" api.apiKey
    |>.addHeader "CB-ACCESS-SIGN"
      (computeAccessSign security api (toString timestamp) request.verb request.path query request.content)
    |>.addHeader "CB-ACCESS-TIMESTAMP" (toString timestamp)
    |>.addHeader "CB-ACCESS-PASSPHRASE" api.apiPassphrase
    |> sendRequest api

/-- The text of the JSON object is that of a third-party writer. -/
def privateRequest (jsonText : RequestParameters → String) (call : PrivateCall) :
    Except Fault (Option PrivateRequest) :=
  match call with
  | .getFee _ => .ok (some ⟨.get, "/fees", [], ""⟩)
  | .getBalances => .ok (some ⟨.get, "/coinbase-accounts", [], ""⟩)
  | .getOpenOrders => .ok (some ⟨.get, "/orders", [("status", "open")], ""⟩)
  | .getClosedOrders => .ok (some ⟨.get, "/orders", [("status", "done")], ""⟩)
  | .addOrder request => do
    let json ← addOrder request
    return some ⟨.post, "/orders", [], jsonText json⟩
  | .cancelOrder orderId => .ok (some ⟨.httpDelete, "/orders/" ++ orderId, [], ""⟩)

end Coinbase

/-! ## Bybit -/

namespace Bybit

/-- Bybit's address. -/
def liveBaseUrl : String := "https://api.bybit.com"

/-- Bybit's address for tests. -/
def testBaseUrl : String := "https://api-testnet.bybit.com"

/-- The keys of a Bybit client. -/
structure Api where
  baseUrl : String
  apiKey : String
  apiSecret : String

/-- The constructor. -/
def create (enableTesting : Bool) (apiKey apiSecret : String) : Api where
  baseUrl := if enableTesting then testBaseUrl else liveBaseUrl
  apiKey := apiKey
  apiSecret := apiSecret

/-- HMAC-SHA256 of the query, the secret taken as it is. -/
def computeApiSign (security : Security) (api : Api) (query : String) : String :=
  hexEncode (hmacSha256 security.openSsl (textBytes query) (textBytes api.apiSecret))

/-- The comparator of the `std::map`. -/
def nameLess (parameter other : String × String) : Bool := decide (parameter.1 < other.1)

/-- The map, with `api_key` and `timestamp` emplaced behind the other parameters. -/
def queryParams (api : Api) (timestamp : ℤ) (parameters : RequestParameters) : RequestParameters :=
  OrderedSet.ofList nameLess
    (parameters ++ [("api_key", api.apiKey), ("timestamp", toString timestamp)])

/-- The signed parameters are the body of a `POST` and the query of every other request. -/
def sendPrivateRequest (security : Security) (api : Api) (timestamp : ℤ) (request : PrivateRequest) :
    HttpRequest :=
  let queryBuilder := urlQuery (queryParams api timestamp request.parameters)
  let queryBuilder := queryBuilder.addParameter "sign" (computeApiSign security api queryBuilder.query)
  let content := if request.verb = .post then queryBuilder.query else ""
  let query := if request.verb = .post then "" else queryBuilder.query
  (HttpRequest.make request.verb (buildUrl api.baseUrl request.path query)).setContent content

/-- The fee is one of the configuration. -/
def privateRequest (getPrice : GetPrice) (call : PrivateCall) : Except Fault (Option PrivateRequest) :=
  match call with
  | .getFee _ => .ok none
  | .getBalances => .ok (some ⟨.get, "spot/v1/account", [], ""⟩)
  | .getOpenOrders => .ok (some ⟨.get, "/spot/v1/open-orders", [], ""⟩)
  | .getClosedOrders => .ok (some ⟨.get, "/spot/v1/history-orders", [], ""⟩)
  | .addOrder request => do
    let parameters ← addOrder getPrice request
    return some ⟨.post, "spot/v1/order", parameters, ""⟩
  | .cancelOrder orderId => .ok (some ⟨.httpDelete, "spot/v1/order", [("orderId", orderId)], ""⟩)

end Bybit

/-! ## Digifinex -/

namespace Digifinex

/-- Digifinex's address. -/
def baseUrl : String := "https://openapi.digifinex.com/v3"

/-- The keys of a Digifinex client. -/
structure Api where
  apiKey : String
  apiSecret : String

/-- HMAC-SHA256 of the query. -/
def computeApiSign (security : Security) (api : Api) (query : String) : String :=
  hexEncode (hmacSha256 security.openSsl (textBytes query) (textBytes api.apiSecret))

/-- The signature and the time are sent in headers. -/
def sendPrivateRequest (security : Security) (api : Api) (timestamp : ℤ) (request : PrivateRequest) :
    HttpRequest :=
  let query := (urlQuery request.parameters).query
  (HttpRequest.make request.verb (buildUrl baseUrl request.path query)).addHeader "ACCESS-KEY" api.apiKey
    |>.addHeader "ACCESS-TIMESTAMP" (toString timestamp)
    |>.addHeader "ACCESS-SIGN" (computeApiSign security api query)

/-- The fee is a constant. -/
def privateRequest (getPrice : GetPrice) (call : PrivateCall) : Except Fault (Option PrivateRequest) :=
  match call with
  | .getFee _ => .ok none
  | .getBalances => .ok (some ⟨.get, "spot/assets", [], ""⟩)
  | .getOpenOrders => .ok (some ⟨.get, "spot/order/current", [], ""⟩)
  | .getClosedOrders => .ok (some ⟨.get, "spot/order/history", [], ""⟩)
  | .addOrder request => do
    let parameters ← addOrder getPrice request
    return some ⟨.post, "spot/order/new", parameters, ""⟩
  | .cancelOrder orderId =>
    .ok (some ⟨.post, "spot/order/cancel", [("market", "spot"), ("order_id", orderId)], ""⟩)

end Digifinex

/-! ## Binance -/

namespace Binance

/-- Binance's address. -/
def liveBaseUrl : String := "https://api.binance.com"

/-- Binance's address for tests. -/
def testBaseUrl : String := "https://testnet.binance.vision"

/-- The keys of a Binance client. -/
structure Api where
  baseUrl : String
  apiKey : String
  secretKey : String

/-- The constructor. -/
def create (enableTesting : Bool) (apiKey secretKey : String) : Api where
  baseUrl := if enableTesting then testBaseUrl else liveBaseUrl
  apiKey := apiKey
  secretKey := secretKey

/-- HMAC-SHA256 of the query. -/
def computeApiSign (security : Security) (api : Api) (query : String) : String :=
  hexEncode (hmacSha256 security.openSsl (textBytes query) (textBytes api.secretKey))

/-- The time and the signature are the last two parameters of the query. -/
def sendPrivateRequest (security : Security) (api : Api) (timestamp : ℤ) (request : PrivateRequest) :
    HttpRequest :=
  let query := (urlQuery request.parameters).addParameter "timestamp" (toString timestamp)
  let query := query.addParameter "signature" (computeApiSign security api query.query)
  (HttpRequest.make request.verb (buildUrl api.baseUrl request.path query.query)).addHeader
    "X-MBX-APIKEY" api.apiKey

/-- The pair that `cancel_order` finds: that of the last open order with the id. -/
def pairOf (openOrders : List OrderDescription) (orderId : String) : String :=
  openOrders.foldl (fun pair order => if order.orderId = orderId then order.pairName else pair) ""

/-- An order that is not open is not cancelled. -/
def privateRequest (orderFilters : UnorderedMap TradablePair BinanceOrderFilters)
    (openOrders : List OrderDescription) (call : PrivateCall) : Except Fault (Option PrivateRequest) :=
  match call with
  | .getFee _ | .getBalances => .ok (some ⟨.get, "/api/v3/account", [], ""⟩)
  | .getOpenOrders => .ok (some ⟨.get, "/api/v3/openOrders", [], ""⟩)
  | .getClosedOrders => .error .otherException
  | .addOrder request => do
    let parameters ← addOrder orderFilters request
    return some ⟨.post, "/api/v3/order", parameters, ""⟩
  | .cancelOrder orderId =>
    if pairOf openOrders orderId = "" then .ok none
    else .ok (some ⟨.httpDelete, "/api/v3/order",
      [("symbol", pairOf openOrders orderId), ("orderId", orderId)], ""⟩)

end Binance

end MarketBlocks
