import MarketBlocks.Exchanges.SignedRequests
import MarketBlocks.Library.Calls

/-!
# Private calls

Each private call of each exchange, with the parameters that it takes from an order, a pair or an id, is
accepted by the exchange that holds the secret, and read as it was meant.
-/

namespace MarketBlocks

open Library

variable {call : PrivateCall} {request : PrivateRequest} {order : OrderRequest}
  {parameters : RequestParameters}

/-! ## The parameters of the calls -/

/-- The joined names of a pair are as unreserved as the names. -/
theorem amp_notMem_toString_pair {pair : TradablePair} (hasset : Unreserved pair.asset)
    (hprice : Unreserved pair.priceUnit) : '&' ∉ pair.toString.toList := by
  rw [TradablePair.toString, String.toList_append, List.mem_append]
  rintro (hmem | hmem)
  · exact amp_notMem_of_unreserved hasset hmem
  · exact amp_notMem_of_unreserved hprice hmem

/-- A number in six digits holds no reserved character. -/
theorem amp_notMem_stdToString (number : ℚ) : '&' ∉ (stdToString number).toList :=
  notMem_stdToString number (by decide) (by decide) (by decide)

/-- No parameters can be sent. -/
theorem sendable_nil {reserved : List String} (hnodup : reserved.Nodup) : Sendable reserved [] :=
  ⟨fun _ hmem => absurd hmem List.not_mem_nil, hnodup⟩

/-- Parameters whose values do not break the query. -/
theorem sendable_of {reserved : List String} (hnames : ∀ name ∈ parameters.map Prod.fst, PlainName name)
    (hvalues : ∀ value ∈ parameters.map Prod.snd, '&' ∉ value.toList)
    (hnodup : (parameters.map Prod.fst ++ reserved).Nodup) : Sendable reserved parameters :=
  ⟨fun _ hmem => plainParameter_of (hnames _ (List.mem_map_of_mem hmem))
    (hvalues _ (List.mem_map_of_mem hmem)), hnodup⟩

/-- The names of a pair around a separator are as unreserved as the names. -/
theorem amp_notMem_toStringWith {pair : TradablePair} {separator : Char} (hseparator : separator ≠ '&')
    (hasset : Unreserved pair.asset) (hprice : Unreserved pair.priceUnit) :
    '&' ∉ (pair.toStringWith separator).toList := by
  rw [TradablePair.toStringWith]
  split
  · exact amp_notMem_toString_pair hasset hprice
  · rw [String.toList_append, String.toList_append, List.mem_append, List.mem_append]
    rintro ((hmem | hmem) | hmem)
    · exact amp_notMem_of_unreserved hasset hmem
    · rw [Char.toString, String.toList_singleton, List.mem_singleton] at hmem
      exact hseparator hmem.symm
    · exact amp_notMem_of_unreserved hprice hmem

/-- Of two texts without the character, either is without it. -/
theorem amp_notMem_ite {p : Prop} [Decidable p] {first second : String} (hfirst : '&' ∉ first.toList)
    (hsecond : '&' ∉ second.toList) : '&' ∉ (if p then first else second).toList := by
  split
  · exact hfirst
  · exact hsecond

/-- One parameter whose name is not reserved. -/
theorem sendable_singleton {reserved : List String} {key value : String} (hname : PlainName key)
    (hvalue : '&' ∉ value.toList) (hnodup : (key :: reserved).Nodup) :
    Sendable reserved [(key, value)] :=
  (sendable_nil hnodup).concat hname hvalue

/-- Parameters that are left out do no harm. -/
theorem Sendable.sublist {reserved : List String} {part : RequestParameters}
    (h : Sendable reserved parameters) (hpart : part.Sublist parameters) : Sendable reserved part :=
  ⟨fun _ hmem => h.plain _ (hpart.subset hmem),
    h.nodup.sublist ((hpart.map Prod.fst).append_right reserved)⟩

/-- A call of a constant path. -/
theorem addressed_of {reserved : List String} {path : String} (hpath : path ≠ "" ∧ '?' ∉ path.toList)
    (h : Sendable reserved parameters) (verb : HttpVerb) (content : String) :
    Addressed reserved ⟨verb, path, parameters, content⟩ :=
  ⟨hpath.1, hpath.2, h⟩

/-! ## Kraken -/

namespace Kraken

/-- Kraken's names of the order types are plain. -/
private theorem amp_notMem_orderTypeText {orderType : OrderType} {text : String}
    (h : orderTypeText orderType = .ok text) : '&' ∉ text.toList := by
  cases orderType <;> cases h <;> decide

/-- The parameters of Kraken's orders. -/
theorem sendable_addOrder (h : addOrder order = .ok parameters) (hasset : Unreserved order.pair.asset)
    (hprice : Unreserved order.pair.priceUnit) : Sendable ["nonce"] parameters := by
  obtain ⟨orderType, htype, hparameters⟩ := exists_of_bind_eq_ok h
  cases hparameters
  refine sendable_of ?_ ?_ ?_
  · change ∀ name ∈ ["pair", "type", "ordertype", "price", "volume"], PlainName name
    decide
  · simp only [List.map_cons, List.map_nil, List.forall_mem_cons]
    exact ⟨amp_notMem_toString_pair hasset hprice, amp_notMem_ite (by decide) (by decide),
      amp_notMem_orderTypeText htype, amp_notMem_stdToString _, amp_notMem_stdToString _, by simp⟩
  · change ["pair", "type", "ordertype", "price", "volume", "nonce"].Nodup
    decide

/-- What a call hands to `send_private_request`. -/
theorem privateRequest_spec (hplain : call.Plain) (h : privateRequest call = .ok (some request)) :
    request.verb = .post ∧ request.content = "" ∧ Addressed ["nonce"] request := by
  have hnil : Sendable ["nonce"] [] := sendable_nil (by decide)
  cases call with
  | getFee pair =>
    cases h
    have hpair := amp_notMem_toString_pair hplain.1 hplain.2
    exact ⟨rfl, rfl, addressed_of (by decide) (sendable_singleton (by decide) hpair (by decide)) _ _⟩
  | getBalances =>
    cases h
    exact ⟨rfl, rfl, addressed_of (by decide) hnil _ _⟩
  | getOpenOrders =>
    cases h
    exact ⟨rfl, rfl, addressed_of (by decide) hnil _ _⟩
  | getClosedOrders =>
    cases h
    exact ⟨rfl, rfl, addressed_of (by decide) hnil _ _⟩
  | addOrder order =>
    obtain ⟨parameters, hparameters, hrequest⟩ := exists_of_bind_eq_ok h
    cases hrequest
    exact ⟨rfl, rfl, addressed_of (by decide) (sendable_addOrder hparameters hplain.1 hplain.2) _ _⟩
  | cancelOrder orderId =>
    cases h
    have hid := amp_notMem_of_unreserved hplain
    exact ⟨rfl, rfl, addressed_of (by decide) (sendable_singleton (by decide) hid (by decide)) _ _⟩

end Kraken

/-! ## Coinbase -/

namespace Coinbase

/-- The only parameter of a query is the status of the orders. -/
theorem privateRequest_spec {jsonText : RequestParameters → String} (hplain : call.Plain)
    (h : privateRequest jsonText call = .ok (some request)) :
    request.path.toList.head? = some '/' ∧ Addressed [] request := by
  have hnil : Sendable [] [] := sendable_nil List.nodup_nil
  have hstatus (status : String) (h : '&' ∉ status.toList) : Sendable [] [("status", status)] :=
    sendable_singleton (by decide) h (by decide)
  cases call with
  | getFee pair =>
    cases h
    exact ⟨rfl, addressed_of (by decide) hnil _ _⟩
  | getBalances =>
    cases h
    exact ⟨rfl, addressed_of (by decide) hnil _ _⟩
  | getOpenOrders =>
    cases h
    exact ⟨rfl, addressed_of (by decide) (hstatus _ (by decide)) _ _⟩
  | getClosedOrders =>
    cases h
    exact ⟨rfl, addressed_of (by decide) (hstatus _ (by decide)) _ _⟩
  | addOrder order =>
    obtain ⟨json, -, hrequest⟩ := exists_of_bind_eq_ok h
    cases hrequest
    have hroot : "/orders".toList.head? = some '/' := rfl
    exact ⟨hroot, addressed_of (by decide) hnil _ _⟩
  | cancelOrder orderId =>
    cases h
    have hroot : ("/orders/" ++ orderId).toList.head? = some '/' := by simp
    refine ⟨hroot, addressed_of ⟨?_, ?_⟩ hnil _ _⟩
    · intro hempty
      rw [hempty] at hroot
      cases hroot
    · rw [String.toList_append, List.mem_append]
      rintro (hmem | hmem)
      · exact absurd hmem (by decide)
      · exact absurd (hplain _ hmem) (by decide)

end Coinbase

/-! ## Bybit -/

namespace Bybit

/-- The parameters that Bybit's client adds. -/
def reserved : List String := ["api_key", "timestamp", "sign"]

/-- The parameters of Bybit's orders, whose quantity may need a price. -/
theorem sendable_addOrder {getPrice : GetPrice} (h : addOrder getPrice order = .ok parameters)
    (hasset : Unreserved order.pair.asset) (hprice : Unreserved order.pair.priceUnit) :
    Sendable reserved parameters := by
  obtain ⟨quantity, -, hparameters⟩ := exists_of_bind_eq_ok h
  cases hparameters
  refine sendable_of ?_ ?_ ?_
  · change ∀ name ∈ ["symbol", "qty", "side", "type", "price"], PlainName name
    decide
  · simp only [List.map_cons, List.map_nil, List.forall_mem_cons]
    exact ⟨amp_notMem_toString_pair hasset hprice, amp_notMem_stdToString _,
      amp_notMem_ite (by decide) (by decide), amp_notMem_ite (by decide) (by decide),
      amp_notMem_stdToString _, by simp⟩
  · change (["symbol", "qty", "side", "type", "price"] ++ reserved).Nodup
    decide

/-- What Bybit's client builds for a plain call has no content, and can be read back. -/
theorem privateRequest_spec {getPrice : GetPrice} (hplain : call.Plain)
    (h : privateRequest getPrice call = .ok (some request)) :
    request.content = "" ∧ Addressed reserved request := by
  have hnil : Sendable reserved [] := sendable_nil (by decide)
  cases call with
  | getFee pair => cases h
  | getBalances =>
    cases h
    exact ⟨rfl, addressed_of (by decide) hnil _ _⟩
  | getOpenOrders =>
    cases h
    exact ⟨rfl, addressed_of (by decide) hnil _ _⟩
  | getClosedOrders =>
    cases h
    exact ⟨rfl, addressed_of (by decide) hnil _ _⟩
  | addOrder order =>
    obtain ⟨parameters, hparameters, hrequest⟩ := exists_of_bind_eq_ok h
    cases hrequest
    exact ⟨rfl, addressed_of (by decide) (sendable_addOrder hparameters hplain.1 hplain.2) _ _⟩
  | cancelOrder orderId =>
    cases h
    have hid := amp_notMem_of_unreserved hplain
    exact ⟨rfl, addressed_of (by decide) (sendable_singleton (by decide) hid (by decide)) _ _⟩

end Bybit

/-! ## Digifinex -/

namespace Digifinex

/-- Digifinex's names of the order types are plain. -/
private theorem amp_notMem_getOrderType {orderType : OrderType} {action : TradeAction} {text : String}
    (h : getOrderType orderType action = .ok text) : '&' ∉ text.toList := by
  cases orderType <;> cases action <;> cases h <;> decide

/-- The parameters of Digifinex's orders. -/
theorem sendable_addOrder {getPrice : GetPrice} (h : addOrder getPrice order = .ok parameters)
    (hasset : Unreserved order.pair.asset) (hprice : Unreserved order.pair.priceUnit) :
    Sendable [] parameters := by
  obtain ⟨orderType, htype, h⟩ := exists_of_bind_eq_ok h
  obtain ⟨amount, -, hparameters⟩ := exists_of_bind_eq_ok h
  cases hparameters
  refine sendable_of ?_ ?_ ?_
  · change ∀ name ∈ ["market", "symbol", "type", "amount", "price"], PlainName name
    decide
  · simp only [List.map_cons, List.map_nil, List.forall_mem_cons]
    exact ⟨by decide, amp_notMem_toStringWith (by decide) hasset hprice, amp_notMem_getOrderType htype,
      amp_notMem_stdToString _, amp_notMem_stdToString _, by simp⟩
  · change ["market", "symbol", "type", "amount", "price"].Nodup
    decide

/-- What Digifinex's client builds for a plain call has no content, and can be read back. -/
theorem privateRequest_spec {getPrice : GetPrice} (hplain : call.Plain)
    (h : privateRequest getPrice call = .ok (some request)) :
    request.content = "" ∧ Addressed [] request := by
  have hnil : Sendable [] [] := sendable_nil List.nodup_nil
  cases call with
  | getFee pair => cases h
  | getBalances =>
    cases h
    exact ⟨rfl, addressed_of (by decide) hnil _ _⟩
  | getOpenOrders =>
    cases h
    exact ⟨rfl, addressed_of (by decide) hnil _ _⟩
  | getClosedOrders =>
    cases h
    exact ⟨rfl, addressed_of (by decide) hnil _ _⟩
  | addOrder order =>
    obtain ⟨parameters, hparameters, hrequest⟩ := exists_of_bind_eq_ok h
    cases hrequest
    exact ⟨rfl, addressed_of (by decide) (sendable_addOrder hparameters hplain.1 hplain.2) _ _⟩
  | cancelOrder orderId =>
    cases h
    have hmarket : Sendable ["order_id"] [("market", "spot")] :=
      sendable_singleton (by decide) (by decide) (by decide)
    have hid := amp_notMem_of_unreserved hplain
    exact ⟨rfl, addressed_of (by decide) (hmarket.concat (by decide) hid) _ _⟩

end Digifinex

/-! ## Binance -/

namespace Binance

/-- The parameters that Binance's client adds. -/
def reserved : List String := ["timestamp", "signature"]

/-- A number in any precision holds no reserved character. -/
private theorem amp_notMem_toStringWithPrecision (number : ℚ) (precision : ℤ) :
    '&' ∉ (toStringWithPrecision number precision).toList := by
  intro hmem
  rcases mem_fixedText hmem with h | h | h
  · exact absurd h (by decide)
  · exact absurd h (by decide)
  · exact absurd h (by decide)

/-- Binance's names of the order types are plain. -/
private theorem amp_notMem_toOrderTypeStr {orderType : OrderType} {text : String}
    (h : toOrderTypeStr orderType = .ok text) : '&' ∉ text.toList := by
  cases orderType <;> cases h <;> decide

/-- The parameters that every order has, with those of its type behind them. -/
theorem sendable_addOrder {orderFilters : UnorderedMap TradablePair BinanceOrderFilters}
    (h : addOrder orderFilters order = .ok parameters) (hasset : Unreserved order.pair.asset)
    (hprice : Unreserved order.pair.priceUnit) : Sendable reserved parameters := by
  obtain ⟨orderType, htype, hparameters⟩ := exists_of_bind_eq_ok h
  have hpair := amp_notMem_toString_pair hasset hprice
  have htext := amp_notMem_toOrderTypeStr htype
  have hnumber (parameter : OrderRequestParameter) (precision : ℤ) :=
    amp_notMem_toStringWithPrecision (order.get parameter) precision
  let filters := filtersOf orderFilters order.pair
  let delta := order.get .trailingDelta * 10000
  have hall : Sendable reserved
      ([("symbol", order.pair.toString), ("side", toOrderSide order.action), ("type", orderType),
          ("quantity", toStringWithPrecision (order.get .volume) filters.qtyPrecision)] ++
        [("price", toStringWithPrecision (order.get .assetPrice) filters.pricePrecision),
          ("timeInForce", "GTC")] ++
        [("stopPrice", toStringWithPrecision (order.get .stopPrice) filters.pricePrecision),
          ("trailingDelta", toString (delta.num.tdiv delta.den))]) := by
    refine sendable_of ?_ ?_ ?_
    · change ∀ name ∈ ["symbol", "side", "type", "quantity", "price", "timeInForce", "stopPrice",
        "trailingDelta"], PlainName name
      decide
    · simp only [List.cons_append, List.nil_append, List.map_cons, List.map_nil, List.forall_mem_cons]
      exact ⟨hpair, amp_notMem_ite (by decide) (by decide), htext, hnumber _ _, hnumber _ _, by decide,
        hnumber _ _, amp_notMem_toString _, by simp⟩
    · change (["symbol", "side", "type", "quantity", "price", "timeInForce", "stopPrice",
        "trailingDelta"] ++ reserved).Nodup
      decide
  cases hparameters
  -- what an order leaves out depends on its type
  refine hall.sublist (List.Sublist.append (List.Sublist.append (List.Sublist.refl _) ?_) ?_)
  · split
    · exact List.Sublist.refl _
    · exact List.nil_sublist _
  · cases order.orderType with
    | stopLoss => exact (List.nil_sublist _).cons_cons _
    | trailingStopLoss => exact (List.Sublist.refl _).cons _
    | market | limit | takeProfit => exact List.nil_sublist _

/-- The pair of an order to cancel is the name of an open order, or empty. -/
private theorem amp_notMem_pairOf {openOrders : List OrderDescription}
    (hopen : ∀ order ∈ openOrders, Unreserved order.pairName) (orderId : String) :
    '&' ∉ (pairOf openOrders orderId).toList := by
  suffices h : ∀ pair : String, '&' ∉ pair.toList →
      '&' ∉ (openOrders.foldl (fun pair order =>
        if order.orderId = orderId then order.pairName else pair) pair).toList from h "" (by decide)
  induction openOrders with
  | nil => exact fun pair hpair => hpair
  | cons order rest ih =>
    intro pair hpair
    obtain ⟨horder, hrest⟩ := List.forall_mem_cons.mp hopen
    exact ih hrest _ (amp_notMem_ite (amp_notMem_of_unreserved horder) hpair)

/-- What Binance's client builds for a plain call has no content, and can be read back. -/
theorem privateRequest_spec {orderFilters : UnorderedMap TradablePair BinanceOrderFilters}
    {openOrders : List OrderDescription} (hopen : ∀ order ∈ openOrders, Unreserved order.pairName)
    (hplain : call.Plain) (h : privateRequest orderFilters openOrders call = .ok (some request)) :
    request.content = "" ∧ Addressed reserved request := by
  have hnil : Sendable reserved [] := sendable_nil (by decide)
  cases call with
  | getFee pair =>
    cases h
    exact ⟨rfl, addressed_of (by decide) hnil _ _⟩
  | getBalances =>
    cases h
    exact ⟨rfl, addressed_of (by decide) hnil _ _⟩
  | getOpenOrders =>
    cases h
    exact ⟨rfl, addressed_of (by decide) hnil _ _⟩
  | getClosedOrders => cases h
  | addOrder order =>
    obtain ⟨parameters, hparameters, hrequest⟩ := exists_of_bind_eq_ok h
    cases hrequest
    exact ⟨rfl, addressed_of (by decide) (sendable_addOrder hparameters hplain.1 hplain.2) _ _⟩
  | cancelOrder orderId =>
    rw [privateRequest] at h
    split at h
    · cases h
    · cases h
      have hsymbol : Sendable ("orderId" :: reserved) [("symbol", pairOf openOrders orderId)] :=
        sendable_singleton (by decide) (amp_notMem_pairOf hopen orderId) (by decide)
      have hid := amp_notMem_of_unreserved hplain
      exact ⟨rfl, addressed_of (by decide) (hsymbol.concat (by decide) hid) _ _⟩

end Binance

/-! ## All exchanges -/

/-- Whatever a plain call sends is accepted and read as it was meant, with the parameters in some order. -/
def Understood (privateRequest : PrivateCall → Except Fault (Option PrivateRequest))
    (sendPrivateRequest : ℤ → PrivateRequest → HttpRequest) (target : String → String)
    (receive : HttpRequest → Option PrivateRequest) : Prop :=
  ∀ call time request, call.Plain → privateRequest call = .ok (some request) →
    ∃ parameters, parameters.Perm request.parameters ∧
      receive (sendPrivateRequest time request) =
        some ⟨request.verb, target request.path, parameters, request.content⟩

/-- A key and the secret that belongs to it. -/
structure IssuedKey (Secret : Type) where
  key : String
  secret : Secret

/-- What the exchanges issued. Kraken and Coinbase issue bytes, written in base64, that fit into the buffer
of the decoder; the key of Bybit is one of the parameters. -/
structure IssuedKeys where
  kraken : IssuedKey (List UInt8)
  coinbase : IssuedKey (List UInt8)
  coinbasePassphrase : String
  bybit : IssuedKey String
  digifinex : IssuedKey String
  binance : IssuedKey String
  length_kraken : kraken.secret.length ≤ 64
  length_coinbase : coinbase.secret.length ≤ 64
  unreserved_bybit : Unreserved bybit.key

variable (security : Security)

/-- Kraken understands every plain call when the key signs as the secret does. -/
theorem Kraken.understood (api : Kraken.Api) {secret : List UInt8}
    (hsecret : ∀ data, security.openSsl.hmac .sha512 api.decodedPrivateKey data =
      security.openSsl.hmac .sha512 secret data) :
    Understood privateRequest (sendPrivateRequest security api) (buildKrakenPath "private")
      (receive security api.publicKey secret) := by
  intro call time request hplain hcall
  obtain ⟨hverb, hcontent, haddressed⟩ := privateRequest_spec hplain hcall
  refine ⟨request.parameters, List.Perm.refl _, ?_⟩
  rw [receive_sendPrivateRequest security hverb haddressed hsecret, hcontent]

/-- Coinbase understands every plain call when the key signs as the secret does. -/
theorem Coinbase.understood (api : Coinbase.Api) {secret : List UInt8}
    (jsonText : RequestParameters → String) (hbase : api.baseUrl.toList.getLast? ≠ some '/')
    (hsecret : ∀ data, security.openSsl.hmac .sha256 api.decodedApiSecret data =
      security.openSsl.hmac .sha256 secret data) :
    Understood (privateRequest jsonText) (sendPrivateRequest security api) id
      (receive security api.baseUrl api.apiKey api.apiPassphrase secret) := by
  intro call time request hplain hcall
  obtain ⟨hroot, haddressed⟩ := privateRequest_spec hplain hcall
  exact ⟨request.parameters, List.Perm.refl _,
    receive_sendPrivateRequest security hbase hroot haddressed hsecret⟩

/-- Bybit understands every plain call up to the order of its parameters. -/
theorem Bybit.understood (api : Bybit.Api) (getPrice : GetPrice)
    (hbase : api.baseUrl.toList.getLast? ≠ some '/') (hkey : Unreserved api.apiKey) :
    Understood (privateRequest getPrice) (sendPrivateRequest security api) rooted
      (receive security api.baseUrl api.apiKey api.apiSecret) := by
  intro call time request hplain hcall
  obtain ⟨hcontent, haddressed⟩ := privateRequest_spec hplain hcall
  rw [hcontent]
  exact receive_sendPrivateRequest security hbase (amp_notMem_of_unreserved hkey) haddressed

/-- Digifinex understands every plain call. -/
theorem Digifinex.understood (api : Digifinex.Api) (getPrice : GetPrice) :
    Understood (privateRequest getPrice) (sendPrivateRequest security api) rooted
      (receive security api.apiKey api.apiSecret) := by
  intro call time request hplain hcall
  obtain ⟨hcontent, haddressed⟩ := privateRequest_spec hplain hcall
  refine ⟨request.parameters, List.Perm.refl _, ?_⟩
  rw [receive_sendPrivateRequest security haddressed, hcontent]

/-- Binance understands every plain call when the names of the open orders are plain. -/
theorem Binance.understood (api : Binance.Api)
    (orderFilters : UnorderedMap TradablePair Binance.BinanceOrderFilters)
    {openOrders : List OrderDescription}
    (hbase : api.baseUrl.toList.getLast? ≠ some '/')
    (hopen : ∀ order ∈ openOrders, Unreserved order.pairName) :
    Understood (privateRequest orderFilters openOrders) (sendPrivateRequest security api) rooted
      (receive security api.baseUrl api.apiKey api.secretKey) := by
  intro call time request hplain hcall
  obtain ⟨hcontent, haddressed⟩ := privateRequest_spec hopen hplain hcall
  refine ⟨request.parameters, List.Perm.refl _, ?_⟩
  rw [receive_sendPrivateRequest security hbase haddressed, hcontent]

/-- Neither base URL ends with a slash. -/
theorem getLast?_baseUrl_ne {testing : Bool} {test live : String}
    (h : test.toList.getLast? ≠ some '/' ∧ live.toList.getLast? ≠ some '/') :
    (if testing then test else live).toList.getLast? ≠ some '/' := by
  split
  · exact h.1
  · exact h.2

/-- Every private call of every exchange is understood by an exchange that issued the configured keys. -/
def AllUnderstood (keys : IssuedKeys) (testing : Bool) (userAgentId : ℤ) (getPrice : GetPrice)
    (jsonText : RequestParameters → String)
    (orderFilters : UnorderedMap TradablePair Binance.BinanceOrderFilters)
    (openOrders : List OrderDescription) : Prop :=
  (∃ api, Kraken.create security keys.kraken.key (b64Encode security.bio keys.kraken.secret) = .ok api ∧
    Understood Kraken.privateRequest (Kraken.sendPrivateRequest security api)
      (Kraken.buildKrakenPath "private")
      (Kraken.receive security keys.kraken.key keys.kraken.secret)) ∧
  (∃ api, Coinbase.create security testing userAgentId keys.coinbase.key
      (b64Encode security.bio keys.coinbase.secret) keys.coinbasePassphrase = .ok api ∧
    Understood (Coinbase.privateRequest jsonText) (Coinbase.sendPrivateRequest security api) id
      (Coinbase.receive security api.baseUrl keys.coinbase.key keys.coinbasePassphrase
        keys.coinbase.secret)) ∧
  (let api := Bybit.create testing keys.bybit.key keys.bybit.secret;
    Understood (Bybit.privateRequest getPrice) (Bybit.sendPrivateRequest security api) rooted
      (Bybit.receive security api.baseUrl keys.bybit.key keys.bybit.secret)) ∧
  (let api : Digifinex.Api := ⟨keys.digifinex.key, keys.digifinex.secret⟩;
    Understood (Digifinex.privateRequest getPrice) (Digifinex.sendPrivateRequest security api) rooted
      (Digifinex.receive security keys.digifinex.key keys.digifinex.secret)) ∧
  (let api := Binance.create testing keys.binance.key keys.binance.secret;
    Understood (Binance.privateRequest orderFilters openOrders)
      (Binance.sendPrivateRequest security api) rooted
      (Binance.receive security api.baseUrl keys.binance.key keys.binance.secret))

/-- Every private call of every exchange is accepted and read as it was meant, whatever secrets were
issued, as long as those of Kraken and Coinbase fit into the buffer that they are decoded into. -/
theorem allUnderstood (hssl : security.openSsl.Implements) (hbio : security.bio.Implements)
    (keys : IssuedKeys) (testing : Bool) (userAgentId : ℤ) (getPrice : GetPrice)
    (jsonText : RequestParameters → String)
    (orderFilters : UnorderedMap TradablePair Binance.BinanceOrderFilters)
    {openOrders : List OrderDescription} (hopen : ∀ order ∈ openOrders, Unreserved order.pairName) :
    AllUnderstood security keys testing userAgentId getPrice jsonText orderFilters openOrders := by
  obtain ⟨krakenKey, hkraken, hkrakenSigns⟩ := hmac_b64Decode hssl hbio keys.length_kraken
  obtain ⟨coinbaseKey, hcoinbase, hcoinbaseSigns⟩ := hmac_b64Decode hssl hbio keys.length_coinbase
  have hcoinbaseApi := Coinbase.understood security
    ⟨if testing then Coinbase.sandboxBaseUrl else Coinbase.liveBaseUrl, toString userAgentId,
      keys.coinbase.key, coinbaseKey, keys.coinbasePassphrase⟩ jsonText
    (getLast?_baseUrl_ne (by decide)) (hcoinbaseSigns .sha256)
  have hbybit := Bybit.understood security
    (Bybit.create testing keys.bybit.key keys.bybit.secret) getPrice
    (getLast?_baseUrl_ne (by decide)) keys.unreserved_bybit
  have hbinance := Binance.understood security
    (Binance.create testing keys.binance.key keys.binance.secret) orderFilters
    (getLast?_baseUrl_ne (by decide)) hopen
  refine ⟨⟨⟨keys.kraken.key, krakenKey⟩, ?_, Kraken.understood security _ (hkrakenSigns .sha512)⟩,
    ⟨_, ?_, hcoinbaseApi⟩, hbybit, Digifinex.understood security _ getPrice, hbinance⟩
  · rw [Kraken.create, hkraken]
    rfl
  · rw [Coinbase.create, hcoinbase]
    rfl

/-- The JSON object of texts that need no escape: its members stand in the order of their names. -/
def objectText (members : RequestParameters) : String :=
  let texts := (OrderedSet.ofList Bybit.nameLess members).map fun member =>
    "\"" ++ member.1 ++ "\":\"" ++ member.2 ++ "\""
  "\x7b" ++ ",".intercalate texts ++ "\x7d"

/-- The keys of a test. -/
def exampleKeys : IssuedKeys where
  kraken := ⟨"kraken", [1, 2, 3]⟩
  coinbase := ⟨"coinbase", List.replicate 64 7⟩
  coinbasePassphrase := "phrase"
  bybit := ⟨"bybit", "secret"⟩
  digifinex := ⟨"digifinex", "secret"⟩
  binance := ⟨"binance", "secret"⟩
  length_kraken := by decide
  length_coinbase := by decide
  unreserved_bybit := by decide

/-- Keys for all five exchanges, with the hashes and the base64 of the standards. -/
theorem allUnderstood_standard :
    AllUnderstood ⟨.standard, .rfc4648⟩ exampleKeys false 1 (fun _ => .ok 1) objectText ∅
      [⟨0, "17", .limit, "BTCUSDT", .buy, 1, 1⟩] :=
  allUnderstood ⟨.standard, .rfc4648⟩ OpenSsl.standard_implements Base64Bio.rfc4648_implements exampleKeys
    false 1 (fun _ => .ok 1) objectText ∅ (by decide)

end MarketBlocks
