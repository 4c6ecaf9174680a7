import Mathlib.Data.List.Perm.Basic
import Mathlib.Data.String.Basic
import MarketBlocks.Exchanges.PrivateRequests

/-!
# Signed requests

The other side of a private request: an exchange knows the secret, sees the request and nothing else, and
reads the parameters from it when the signature is right. Whatever a private call sends is accepted and
read as it was meant. Texts are not escaped, so the names of pairs and orders are of unreserved characters.
-/

namespace MarketBlocks

open Library

/-! ## Texts that need no escape -/

/-- Only letters, digits and the marks that a URL does not reserve. -/
def Unreserved (text : String) : Prop :=
  ∀ c ∈ text.toList, c.isAlphanum = true ∨ c = '-' ∨ c = '.' ∨ c = '_' ∨ c = '~'

instance (text : String) : Decidable (Unreserved text) :=
  List.decidableBAll _ text.toList

/-- The names and ids in a call hold no reserved characters. -/
def PrivateCall.Plain : PrivateCall → Prop
  | .getFee pair => Unreserved pair.asset ∧ Unreserved pair.priceUnit
  | .addOrder request => Unreserved request.pair.asset ∧ Unreserved request.pair.priceUnit
  | .cancelOrder orderId => Unreserved orderId
  | .getBalances | .getOpenOrders | .getClosedOrders => True

/-! ## Receivers -/

/-- The parameters of other names. -/
def without (names : List String) (parameters : RequestParameters) : RequestParameters :=
  parameters.filter fun parameter => parameter.1 ∉ names

namespace Kraken

/-- The nonce is one of the parameters, and the signature stands in the headers. -/
def receive (security : Security) (publicKey : String) (secret : List UInt8) (request : HttpRequest) :
    Option PrivateRequest := do
  let target ← behind baseUrl request.url
  let path := (splitTarget target).1
  let parameters := readQuery request.content
  let nonce ← parameters.lookup "nonce"
  let message := textBytes path ++
    security.openSsl.hash .sha256 (textBytes (nonce ++ request.content))
  if request.headers.lookup "API-Key" = some publicKey ∧
      request.headers.lookup "API-Sign" =
        some (b64Encode security.bio (security.openSsl.hmac .sha512 secret message)) then
    some ⟨request.verb, path, without ["nonce"] parameters, ""⟩
  else none

end Kraken

namespace Coinbase

/-- Everything is signed: the time, the verb, the path with its query, and the content. -/
def receive (security : Security) (baseUrl apiKey apiPassphrase : String) (secret : List UInt8)
    (request : HttpRequest) : Option PrivateRequest := do
  let target ← behind baseUrl request.url
  let (path, query) := splitTarget target
  let timestamp ← request.headers.lookup "CB-ACCESS-TIMESTAMP"
  let message := timestamp ++ request.verb.toString ++ target ++ request.content
  if request.headers.lookup "CB-ACCESS-KEY" = some apiKey ∧
      request.headers.lookup "CB-ACCESS-PASSPHRASE" = some apiPassphrase ∧
      request.headers.lookup "CB-ACCESS-SIGN" =
        some (b64Encode security.bio (security.openSsl.hmac .sha256 secret (textBytes message))) then
    some ⟨request.verb, path, readQuery query, request.content⟩
  else none

end Coinbase

namespace Bybit

/-- The parameters are in the content of a POST, else in the query. The signature is that of the others in
the order of their names. -/
def receive (security : Security) (baseUrl apiKey apiSecret : String) (request : HttpRequest) :
    Option PrivateRequest := do
  let target ← behind baseUrl request.url
  let (path, query) := splitTarget target
  let parameters := readQuery (if request.verb = .post then request.content else query)
  let signed := without ["sign"] parameters
  if (signed.map Prod.fst).Pairwise (· < ·) ∧ signed.lookup "api_key" = some apiKey ∧
      parameters.lookup "sign" = some (hexEncode (security.openSsl.hmac .sha256
        (textBytes apiSecret) (textBytes (urlQuery signed).query))) then
    some ⟨request.verb, path, without ["api_key", "timestamp"] signed, ""⟩
  else none

end Bybit

namespace Digifinex

/-- Digifinex looks up the key and the signature in the headers and signs the query itself. -/
def receive (security : Security) (apiKey apiSecret : String) (request : HttpRequest) :
    Option PrivateRequest := do
  let target ← behind baseUrl request.url
  let (path, query) := splitTarget target
  let _ ← request.headers.lookup "ACCESS-TIMESTAMP"
  if request.headers.lookup "ACCESS-KEY" = some apiKey ∧
      request.headers.lookup "ACCESS-SIGN" = some (hexEncode (security.openSsl.hmac .sha256
        (textBytes apiSecret) (textBytes query))) then
    some ⟨request.verb, path, readQuery query, ""⟩
  else none

end Digifinex

namespace Binance

/-- The signature is that of the query in front of it. -/
def receive (security : Security) (baseUrl apiKey secretKey : String) (request : HttpRequest) :
    Option PrivateRequest := do
  let target ← behind baseUrl request.url
  let (path, query) := splitTarget target
  let parameters := readQuery query
  let signed := without ["signature"] parameters
  let _ ← signed.lookup "timestamp"
  if request.headers.lookup "X-MBX-APIKEY" = some apiKey ∧
      parameters.lookup "signature" = some (hexEncode (security.openSsl.hmac .sha256
        (textBytes secretKey) (textBytes (urlQuery signed).query))) then
    some ⟨request.verb, path, without ["timestamp"] signed, ""⟩
  else none

end Binance

/-! ## Parameters that can be sent -/

/-- The separator of parameters is reserved. -/
theorem amp_notMem_of_unreserved {text : String} (h : Unreserved text) : '&' ∉ text.toList := by
  intro hmem
  exact absurd (h _ hmem) (by decide)

/-- Each byte is one of 256. -/
theorem amp_notMem_hexEncode (data : List UInt8) : '&' ∉ (hexEncode data).toList := by
  have hbyte : ∀ n < 256,
      '&' ∉ List.replicate (2 - (Nat.toDigits 16 n).length) '0' ++ Nat.toDigits 16 n := by
    decide +kernel
  rw [hexEncode, String.toList_ofList, List.mem_flatMap]
  rintro ⟨value, -, hmem⟩
  exact hbyte _ value.toNat_lt hmem

/-- A time holds no reserved character. -/
theorem amp_notMem_toString (time : ℤ) : '&' ∉ (toString time).toList :=
  notMem_toString_int time (by decide) (by decide)

/-- A name that ends neither its parameter nor itself. -/
abbrev PlainName (name : String) : Prop := '&' ∉ name.toList ∧ '=' ∉ name.toList

/-- A parameter of a plain name and a value without a separator. -/
theorem plainParameter_of {name value : String} (hname : PlainName name) (hvalue : '&' ∉ value.toList) :
    PlainParameter (name, value) := ⟨hname.1, hname.2, hvalue⟩

/-- Parameters that do not break a query, with names that are different from each other and from those
that the signature needs. -/
structure Sendable (reserved : List String) (parameters : RequestParameters) : Prop where
  plain : ∀ parameter ∈ parameters, PlainParameter parameter
  nodup : (parameters.map Prod.fst ++ reserved).Nodup

variable {reserved : List String} {parameters : RequestParameters} {key value : String}

/-- No parameter has a name that the client adds. -/
theorem Sendable.notMem (h : Sendable reserved parameters) {parameter : String × String}
    (hmem : parameter ∈ parameters) : parameter.1 ∉ reserved := by
  intro hreserved
  exact (List.nodup_append.mp h.nodup).2.2 _ (List.mem_map_of_mem hmem) _ hreserved rfl

/-- What is sent in the query is read back. -/
theorem Sendable.readQuery_eq (h : Sendable reserved parameters) :
    readQuery (urlQuery parameters).query = parameters :=
  (readQuery_urlQuery_iff parameters).mpr h.plain

/-- A reserved parameter behind the others. -/
theorem Sendable.concat (h : Sendable (key :: reserved) parameters) (hname : PlainName key)
    (hvalue : '&' ∉ value.toList) : Sendable reserved (parameters ++ [(key, value)]) := by
  constructor
  · intro parameter hmem
    rcases List.mem_append.mp hmem with hmem | hmem
    · exact h.plain parameter hmem
    · rw [List.mem_singleton.mp hmem]
      exact plainParameter_of hname hvalue
  · simpa using h.nodup

/-- A parameter that is added last is written at the end of the query. -/
theorem urlQuery_concat (parameters : RequestParameters) (key value : String) :
    urlQuery (parameters ++ [(key, value)]) = (urlQuery parameters).addParameter key value := by
  rw [urlQuery, List.foldl_append]
  rfl

/-- Taking out the names that the client adds takes none of the call's parameters. -/
theorem Sendable.without_eq (h : Sendable reserved parameters) {names : List String}
    (hnames : names ⊆ reserved) : without names parameters = parameters :=
  List.filter_eq_self.mpr fun _ hmem => decide_eq_true fun hname => h.notMem hmem (hnames hname)

/-- A reserved parameter is left out. -/
theorem Sendable.without_concat (h : Sendable reserved parameters) (hkey : key ∈ reserved) :
    without [key] (parameters ++ [(key, value)]) = parameters := by
  have hkept := h.without_eq (List.cons_subset.mpr ⟨hkey, List.nil_subset _⟩)
  rw [without] at hkept ⊢
  rw [List.filter_append, hkept, List.filter_cons_of_neg (by simp), List.filter_nil, List.append_nil]

/-- A reserved parameter is found. -/
theorem Sendable.lookup_concat (h : Sendable reserved parameters) (hkey : key ∈ reserved) :
    (parameters ++ [(key, value)]).lookup key = some value := by
  refine List.lookup_eq_some_iff.mpr ⟨parameters, [], rfl, fun parameter hmem => ?_⟩
  have hne : key ≠ parameter.1 := fun heq => h.notMem hmem (heq ▸ hkey)
  simpa using hne

/-- A parameter is found under its name. -/
theorem Sendable.lookup_of_mem (h : Sendable reserved parameters) (hmem : (key, value) ∈ parameters) :
    parameters.lookup key = some value := by
  obtain ⟨front, rest, rfl⟩ := List.append_of_mem hmem
  refine List.lookup_eq_some_iff.mpr ⟨front, rest, rfl, fun parameter hfront => ?_⟩
  have hnodup := (List.nodup_append.mp h.nodup).1
  rw [List.map_append, List.map_cons, List.nodup_append] at hnodup
  have hne : parameter.1 ≠ key := hnodup.2.2 _ (List.mem_map_of_mem hfront) _ List.mem_cons_self
  simpa using hne.symm

/-! ## What each exchange accepts -/

variable (security : Security) {time : ℤ} {request : PrivateRequest}

/-- A request whose path and parameters a receiver can tell apart. -/
structure Addressed (reserved : List String) (request : PrivateRequest) : Prop where
  path : request.path ≠ ""
  question : '?' ∉ request.path.toList
  sendable : Sendable reserved request.parameters

/-- A path begins its query nowhere. -/
theorem Addressed.question_rooted (h : Addressed reserved request) : '?' ∉ (rooted request.path).toList := by
  rw [rooted]
  split
  · exact h.question
  · rw [String.toList_append, List.mem_append, not_or]
    exact ⟨by decide, h.question⟩

namespace Binance

variable {api : Api}

/-- Binance accepts what its client sends and reads the parameters before the added two. -/
theorem receive_sendPrivateRequest (hbase : api.baseUrl.toList.getLast? ≠ some '/')
    (haddressed : Addressed ["timestamp", "signature"] request) :
    receive security api.baseUrl api.apiKey api.secretKey (sendPrivateRequest security api time request) =
      some ⟨request.verb, rooted request.path, request.parameters, ""⟩ := by
  have h := haddressed.sendable
  have htimed : Sendable ["signature"] (request.parameters ++ [("timestamp", toString time)]) :=
    h.concat (by decide) (amp_notMem_toString time)
  have hsigned (sign : List UInt8) :
      Sendable [] (request.parameters ++ [("timestamp", toString time)] ++
        [("signature", hexEncode sign)]) :=
    htimed.concat (by decide) (amp_notMem_hexEncode sign)
  simp only [sendPrivateRequest, receive, computeApiSign, HttpRequest.make, HttpRequest.addHeader,
    ← urlQuery_concat, behind_buildUrl _ hbase haddressed.path,
    splitTarget_appendQuery _ haddressed.question_rooted,
    (hsigned _).readQuery_eq, htimed.without_concat (List.mem_singleton_self _),
    htimed.lookup_concat (List.mem_singleton_self _), h.lookup_concat List.mem_cons_self,
    h.without_concat List.mem_cons_self, Option.bind_eq_bind, Option.bind_some]
  rw [if_pos ⟨rfl, rfl⟩]

end Binance

namespace Digifinex

variable {api : Api}

/-- Digifinex accepts what its client sends and reads the query. -/
theorem receive_sendPrivateRequest (haddressed : Addressed [] request) :
    receive security api.apiKey api.apiSecret (sendPrivateRequest security api time request) =
      some ⟨request.verb, rooted request.path, request.parameters, ""⟩ := by
  have hbase : baseUrl.toList.getLast? ≠ some '/' := by decide
  simp only [sendPrivateRequest, receive, computeApiSign, HttpRequest.make, HttpRequest.addHeader,
    behind_buildUrl _ hbase haddressed.path, splitTarget_appendQuery _ haddressed.question_rooted,
    haddressed.sendable.readQuery_eq, hmacSha256, Option.bind_eq_bind, Option.bind_some]
  exact if_pos ⟨rfl, rfl⟩

end Digifinex

namespace Coinbase

variable {api : Api} {secret : List UInt8}

/-- The path is signed as it stands in the URL, so it has its slash. -/
theorem receive_sendPrivateRequest (hbase : api.baseUrl.toList.getLast? ≠ some '/')
    (hroot : request.path.toList.head? = some '/') (haddressed : Addressed [] request)
    (hsecret : ∀ data, security.openSsl.hmac .sha256 api.decodedApiSecret data =
      security.openSsl.hmac .sha256 secret data) :
    receive security api.baseUrl api.apiKey api.apiPassphrase secret
        (sendPrivateRequest security api time request) = some request := by
  have hrooted : rooted request.path = request.path := if_pos hroot
  have hurl := behind_buildUrl (urlQuery request.parameters).query hbase haddressed.path
  rw [hrooted] at hurl
  by_cases hcontent : request.content = ""
  · simp only [sendPrivateRequest, sendRequest, receive, computeAccessSign, HttpRequest.make,
      HttpRequest.addHeader, hcontent, ne_eq, not_true_eq_false, if_false, hurl,
      splitTarget_appendQuery _ haddressed.question, haddressed.sendable.readQuery_eq,
      appendQuery_append, hmacSha256, hsecret, b64Encode, Option.bind_eq_bind, Option.bind_some]
    rw [← hcontent]
    exact if_pos ⟨rfl, rfl, rfl⟩
  · simp only [sendPrivateRequest, sendRequest, receive, computeAccessSign, HttpRequest.make,
      HttpRequest.addHeader, HttpRequest.setContent, hcontent, ne_eq, not_false_eq_true, if_true, hurl,
      splitTarget_appendQuery _ haddressed.question, haddressed.sendable.readQuery_eq,
      appendQuery_append, hmacSha256, hsecret, b64Encode, Option.bind_eq_bind, Option.bind_some]
    exact if_pos ⟨rfl, rfl, rfl⟩

end Coinbase

namespace Kraken

variable {api : Api} {secret : List UInt8}

/-- Kraken accepts what its client sends and reads the body behind the nonce. -/
theorem receive_sendPrivateRequest (hverb : request.verb = .post)
    (haddressed : Addressed ["nonce"] request)
    (hsecret : ∀ data, security.openSsl.hmac .sha512 api.decodedPrivateKey data =
      security.openSsl.hmac .sha512 secret data) :
    receive security api.publicKey secret (sendPrivateRequest security api time request) =
      some ⟨request.verb, buildKrakenPath "private" request.path, request.parameters, ""⟩ := by
  have hbase : baseUrl.toList.getLast? ≠ some '/' := by decide
  have hroot : (buildKrakenPath "private" request.path).toList.head? = some '/' := by
    simp [buildKrakenPath]
  have hquestion : '?' ∉ (buildKrakenPath "private" request.path).toList := by
    rw [buildKrakenPath, String.toList_append, List.mem_append, not_or]
    exact ⟨by decide, haddressed.question⟩
  have hpath : buildKrakenPath "private" request.path ≠ "" := by
    intro hempty
    rw [hempty] at hroot
    cases hroot
  have hurl := behind_buildUrl "" hbase hpath
  rw [rooted, if_pos hroot] at hurl
  -- the content is the query with the nonce in front
  have hcontent : (urlQuery (("nonce", toString time) :: request.parameters)).query =
      if (urlQuery request.parameters).query ≠ "" then
        "nonce=" ++ toString time ++ "&" ++ (urlQuery request.parameters).query
      else "nonce=" ++ toString time :=
    urlQuery_cons "nonce" (toString time) request.parameters
  have hread : readQuery (urlQuery (("nonce", toString time) :: request.parameters)).query =
      ("nonce", toString time) :: request.parameters := by
    refine (readQuery_urlQuery_iff _).mpr fun parameter hmem => ?_
    rcases List.mem_cons.mp hmem with rfl | hmem
    · exact plainParameter_of (by decide) (amp_notMem_toString time)
    · exact haddressed.sendable.plain parameter hmem
  have hwithout : without ["nonce"] (("nonce", toString time) :: request.parameters) =
      request.parameters :=
    haddressed.sendable.without_eq (List.Subset.refl _)
  simp only [sendPrivateRequest, receive, computeApiSign, HttpRequest.make, HttpRequest.addHeader,
    HttpRequest.setContent, ← hcontent, hurl, splitTarget_appendQuery _ hquestion, hread, hwithout,
    hmacSha512, hsecret, b64Encode, hverb, sha256, List.lookup_cons_self, Option.bind_eq_bind,
    Option.bind_some]
  exact if_pos ⟨rfl, rfl⟩

end Kraken

namespace Bybit

variable {api : Api}

/-- The map of Bybit's parameters is sorted by their names. -/
theorem nameLess_orderedBy : OrderedSet.OrderedBy nameLess Prod.fst Set.univ :=
  fun _ _ _ _ => decide_eq_true_iff

variable {entries : RequestParameters}

/-- The map holds the parameters when their names are different. -/
theorem ofList_perm (hnodup : (entries.map Prod.fst).Nodup) :
    (OrderedSet.ofList nameLess entries).Perm entries := by
  have hsorted : OrderedSet.Sorted Prod.fst Set.univ (OrderedSet.ofList nameLess entries) :=
    OrderedSet.sorted_ofList nameLess_orderedBy fun _ _ => trivial
  have hmap : (OrderedSet.ofList nameLess entries).Nodup :=
    hsorted.increasing.imp fun hlt => ne_of_apply_ne Prod.fst hlt.ne
  refine (List.perm_ext_iff_of_nodup hmap hnodup.of_map).mpr fun parameter => ?_
  exact OrderedSet.mem_ofList nameLess_orderedBy (fun _ _ => trivial) (List.inj_on_of_nodup_map hnodup)

/-- The parameters of `queryParams`, in the order of their names. -/
theorem queryParams_spec (time : ℤ) (h : Sendable ["api_key", "timestamp", "sign"] parameters)
    (hkey : '&' ∉ api.apiKey.toList) :
    Sendable ["sign"] (queryParams api time parameters) ∧
      ((queryParams api time parameters).map Prod.fst).Pairwise (· < ·) ∧
      (queryParams api time parameters).Perm
        (parameters ++ [("api_key", api.apiKey), ("timestamp", toString time)]) := by
  have hall : Sendable ["sign"]
      (parameters ++ [("api_key", api.apiKey)] ++ [("timestamp", toString time)]) :=
    (h.concat (by decide) hkey).concat (by decide) (amp_notMem_toString time)
  rw [List.append_assoc, List.singleton_append] at hall
  have hperm := ofList_perm (List.nodup_append.mp hall.nodup).1
  refine ⟨⟨fun parameter hmem => hall.plain parameter (hperm.mem_iff.mp hmem), ?_⟩, ?_, hperm⟩
  · exact ((hperm.map Prod.fst).append_right _).nodup_iff.mpr hall.nodup
  · exact List.pairwise_map.mpr
      (OrderedSet.sorted_ofList nameLess_orderedBy fun _ _ => trivial).increasing

/-- Bybit accepts what its client sends and reads the parameters in the order of their names. -/
theorem receive_sendPrivateRequest (hbase : api.baseUrl.toList.getLast? ≠ some '/')
    (hkey : '&' ∉ api.apiKey.toList) (haddressed : Addressed ["api_key", "timestamp", "sign"] request) :
    ∃ parameters, parameters.Perm request.parameters ∧
      receive security api.baseUrl api.apiKey api.apiSecret (sendPrivateRequest security api time request) =
        some ⟨request.verb, rooted request.path, parameters, ""⟩ := by
  have h := haddressed.sendable
  obtain ⟨hsendable, hsorted, hperm⟩ := queryParams_spec time h hkey
  have hfound : (queryParams api time request.parameters).lookup "api_key" = some api.apiKey :=
    hsendable.lookup_of_mem (hperm.mem_iff.mpr (by simp))
  have hsigned (sign : List UInt8) :
      Sendable [] (queryParams api time request.parameters ++ [("sign", hexEncode sign)]) :=
    hsendable.concat (by decide) (amp_notMem_hexEncode sign)
  refine ⟨without ["api_key", "timestamp"] (queryParams api time request.parameters), ?_, ?_⟩
  · refine (hperm.filter _).trans (List.Perm.of_eq ?_)
    have hkept : without ["api_key", "timestamp"] request.parameters = request.parameters :=
      h.without_eq (by simp)
    rw [without] at hkept
    rw [List.filter_append, hkept]
    simp
  · by_cases hverb : request.verb = .post
    · simp only [sendPrivateRequest, receive, computeApiSign, HttpRequest.make, HttpRequest.setContent,
        hverb, if_true, behind_buildUrl _ hbase haddressed.path,
        splitTarget_appendQuery _ haddressed.question_rooted, ← urlQuery_concat,
        (hsigned _).readQuery_eq, hsendable.without_concat (List.mem_singleton_self _),
        hsendable.lookup_concat (List.mem_singleton_self _), Option.bind_eq_bind, Option.bind_some]
      exact if_pos ⟨hsorted, hfound, rfl⟩
    · simp only [sendPrivateRequest, receive, computeApiSign, HttpRequest.make, HttpRequest.setContent,
        hverb, if_false, behind_buildUrl _ hbase haddressed.path,
        splitTarget_appendQuery _ haddressed.question_rooted, ← urlQuery_concat,
        (hsigned _).readQuery_eq, hsendable.without_concat (List.mem_singleton_self _),
        hsendable.lookup_concat (List.mem_singleton_self _), Option.bind_eq_bind, Option.bind_some]
      exact if_pos ⟨hsorted, hfound, rfl⟩

end Bybit

end MarketBlocks
