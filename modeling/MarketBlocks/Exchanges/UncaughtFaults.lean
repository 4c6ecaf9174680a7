import MarketBlocks.Exchanges.RestCalls

/-!
# What the exchanges throw

A strategy survives the `mb_exception`s of its calls. Everything else that a call can throw is accounted
for: by the call itself, by a document that its reader goes wrong on, or by prices of pairs that were not
asked for.
-/

namespace MarketBlocks

open Library

/-- The calls that throw, or go wrong, whatever is answered. -/
def RestApi.Forbids : RestApi → RestCall → Prop
  | kraken _, .getPrices pairs => pairs = []
  | kraken _, .account (.addOrder request) => request.orderType = .trailingStopLoss
  | kraken _, .getOhlcv _ interval _ => interval = .unknown
  | coinbase _, .getOhlcv _ interval _ => interval = .unknown
  | digifinex _, .getOhlcv _ interval _ => interval = .unknown
  | binance _ _, .account .getClosedOrders => True
  | binance _ _, .addOrderConfirm _ => False
  | _, .addOrderConfirm _ => True
  | _, _ => False

variable (libs : RestLibraries)

/-- The prices that a reader has read by their names. -/
def namedPrices : Sent × Except String HttpResponse → Option (UnorderedMap String ℚ)
  | (⟨_, .kraken .prices⟩, reply) => (readReply libs (.kraken .prices) reply).toOption
  | (⟨_, .binance .prices⟩, reply) => (readReply libs (.binance .prices) reply).toOption
  | _ => none

/-- There is a price of a pair that was not asked for. -/
def NamesOthers (call : RestCall) (entry : Sent × Except String HttpResponse) : Prop :=
  ∃ pairs names, call = .getPrices pairs ∧ namedPrices libs entry = some names ∧
    ∃ name ∈ names.keys, ∀ pair ∈ pairs, pair.toString ≠ name

/-- An answer that derails a call. -/
def Derails (call : RestCall) (entry : Sent × Except String HttpResponse) : Prop :=
  Unreadable libs entry ∨ NamesOthers libs call entry

/-- What is thrown is accounted for by an answer. -/
def AccountsFor {α : Type} (call : RestCall) (entries : List (Sent × Except String HttpResponse))
    (result : Except Fault α) : Prop :=
  Uncaught result ↔ ∃ entry ∈ entries, Derails libs call entry

/-- Whatever is answered. -/
def Accounted {α : Type} (call : RestCall) (program : Rest α) : Prop :=
  Interaction.Always (AccountsFor libs call) program

variable {libs} {call : RestCall} {α β : Type}

/-- The readers of the requests that read no named prices. -/
def RestReader.ordinary : RestReader → Bool
  | kraken .prices | binance .prices | binance .closedOrders => false
  | _ => true

/-- Only the readers of prices by name give names to look up. -/
theorem namedPrices_of_ordinary (libs : RestLibraries) (sent : Sent) (h : sent.reader.ordinary = true)
    (reply : Except String HttpResponse) : namedPrices libs (sent, reply) = none := by
  obtain ⟨request, reader⟩ := sent
  cases reader with
  | kraken reader =>
    cases reader with
    | prices => cases h
    | _ => rfl
  | binance reader =>
    cases reader with
    | prices => cases h
    | _ => rfl
  | _ => rfl

namespace Accounted

/-- A result that the runner would catch needs no account. -/
theorem of_not_uncaught {result : Except Fault α} (h : ¬Uncaught result) :
    Accounted libs call (.done result : Rest α) :=
  iff_of_false h (by simp)

/-- A value needs no account. -/
theorem pure (value : α) : Accounted libs call (Pure.pure value : Rest α) :=
  of_not_uncaught (not_uncaught_ok value)

/-- A computation without requests whose fault is caught needs no account. -/
theorem lift {result : Except Fault α} (h : ¬Uncaught result) :
    Accounted libs call (liftM result : Rest α) :=
  of_not_uncaught h

/-- Two programs of one call, one after the other. -/
theorem bind {program : Rest α} {next : α → Rest β} (h : Accounted libs call program)
    (hnext : ∀ value, Accounted libs call (next value)) : Accounted libs call (program >>= next) := by
  refine Interaction.Always.bind h fun entries result hentries => ?_
  cases result with
  | ok value =>
    refine (hnext value).mono fun later result hlater => ?_
    have hnone : ¬∃ entry ∈ entries, Derails libs call entry := mt hentries.mpr (not_uncaught_ok value)
    refine hlater.trans ?_
    simp only [List.mem_append]
    constructor
    · rintro ⟨entry, hmem, hderails⟩
      exact ⟨entry, .inr hmem, hderails⟩
    · rintro ⟨entry, hmem | hmem, hderails⟩
      · exact absurd ⟨entry, hmem, hderails⟩ hnone
      · exact ⟨entry, hmem, hderails⟩
  | error fault =>
    change AccountsFor libs call (entries ++ []) (.error fault)
    rw [List.append_nil, AccountsFor, uncaught_error_iff]
    exact uncaught_error_iff.symm.trans hentries

/-- A request, unless its answer is one of named prices. -/
theorem sendHttpRequest (request : ℤ → HttpRequest) {reader : RestReader}
    (hordinary : reader.ordinary = true) :
    Accounted libs call (MarketBlocks.sendHttpRequest libs request reader) := by
  intro reply
  change AccountsFor libs call [(⟨request, reader⟩, reply)] (readReply libs reader reply)
  have hreader : reader ≠ .binance .closedOrders := by
    rintro rfl
    cases hordinary
  have hnone := namedPrices_of_ordinary libs ⟨request, reader⟩ hordinary reply
  rw [AccountsFor, uncaught_readReply_iff libs ⟨request, reader⟩ hreader]
  simp only [List.mem_singleton, exists_eq_left]
  refine ⟨.inl, ?_⟩
  rintro (hunreadable | ⟨pairs, names, -, hnames, -⟩)
  · exact hunreadable
  · rw [hnone] at hnames
    cases hnames

/-- A request for each pair. -/
theorem getEach {get : TradablePair → Rest α} (h : ∀ pair, Accounted libs call (get pair))
    (pairs : List TradablePair) : Accounted libs call (MarketBlocks.getEach get pairs) := by
  rw [MarketBlocks.getEach]
  generalize (∅ : UnorderedMap TradablePair α) = found
  induction pairs generalizing found with
  | nil => exact pure found
  | cons pair rest ih =>
    rw [List.foldlM_cons]
    exact bind (bind (h pair) fun value => pure _) ih

/-- A request that ends a call. -/
theorem answered (request : ℤ → HttpRequest) {reader : RestReader} (hordinary : reader.ordinary = true)
    (reply : reader.Value → β) :
    Accounted libs call (do
      let value ← MarketBlocks.sendHttpRequest libs request reader
      return reply value) :=
  bind (sendHttpRequest request hordinary) fun _ => pure _

/-- A loop of requests that ends a call. -/
theorem eachAnswered (request : TradablePair → ℤ → HttpRequest) {reader : RestReader}
    (hordinary : reader.ordinary = true) (pairs : List TradablePair)
    (reply : UnorderedMap TradablePair reader.Value → β) :
    Accounted libs call (do
      let values ← MarketBlocks.getEach
        (fun pair => MarketBlocks.sendHttpRequest libs (request pair) reader) pairs
      return reply values) :=
  bind (getEach (fun pair => sendHttpRequest (request pair) hordinary) pairs) fun _ => pure _

/-- A price that is asked for where an order takes one. -/
theorem priced {takesPrice : Prop} [Decidable takesPrice] {getPrice : Rest ℚ} {next : GetPrice → Rest α}
    (hprice : Accounted libs call getPrice)
    (htaken : takesPrice → ∀ price, Accounted libs call (next fun _ => .ok price))
    (hnone : ¬takesPrice → Accounted libs call (next noPrice)) :
    Accounted libs call (if takesPrice then do
        let price ← getPrice
        next fun _ => .ok price
      else next noPrice) := by
  split_ifs with h
  · exact bind hprice (htaken h)
  · exact hnone h

/-- A signed request whose building is not to blame, with an ordinary reader. -/
theorem sendPrivately {request : Except Fault (Option PrivateRequest)}
    (hrequest : ¬Uncaught request) (sign : ℤ → PrivateRequest → HttpRequest) {reader : RestReader}
    (hordinary : reader.ordinary = true) (reply : reader.Value → RestReply) :
    Accounted libs call (MarketBlocks.sendPrivately libs request sign reader reply) := by
  refine bind (lift hrequest) fun request => ?_
  cases request with
  | some request => exact bind (sendHttpRequest _ hordinary) fun value => pure _
  | none => exact pure _

end Accounted

/-! ## Requests that are refused -/

/-- Kraken's client throws something else for trailing orders alone. -/
theorem Kraken.not_uncaught_privateRequest {call : PrivateCall}
    (h : ∀ request, call = .addOrder request → request.orderType ≠ .trailingStopLoss) :
    ¬Uncaught (privateRequest call) := by
  cases call with
  | addOrder request =>
    have htype := h request rfl
    rw [privateRequest, addOrder]
    cases horder : request.orderType with
    | trailingStopLoss => exact absurd horder htype
    | _ => exact not_uncaught_ok _
  | _ => exact not_uncaught_ok _

/-- Coinbase's client throws nothing else. -/
theorem Coinbase.not_uncaught_privateRequest (objectText : RequestParameters → String)
    (call : PrivateCall) : ¬Uncaught (privateRequest objectText call) := by
  cases call with
  | addOrder request =>
    rw [privateRequest, addOrder]
    cases request.orderType with
    | trailingStopLoss => exact not_uncaught_mbException _
    | _ => exact not_uncaught_ok _
  | _ => exact not_uncaught_ok _

/-- Bybit's client passes on what asking for the price of a market order throws. -/
theorem Bybit.not_uncaught_privateRequest {getPrice : GetPrice} {call : PrivateCall}
    (h : ∀ request, call = .addOrder request → request.orderType = .market ∧ request.action = .buy →
      ∃ price, getPrice request.pair = .ok price) : ¬Uncaught (privateRequest getPrice call) := by
  cases call with
  | addOrder request =>
    have hquantity : ∃ quantity, getOrderQuantity request getPrice = .ok quantity := by
      rw [getOrderQuantity]
      split_ifs with hmarket
      · obtain ⟨price, hprice⟩ := h request rfl hmarket
        rw [hprice]
        exact ⟨_, rfl⟩
      · exact ⟨_, rfl⟩
    obtain ⟨quantity, hquantity⟩ := hquantity
    rw [privateRequest, addOrder, hquantity]
    exact not_uncaught_ok _
  | _ => exact not_uncaught_ok _

/-- Digifinex's client does the same for both sides of a market order. -/
theorem Digifinex.not_uncaught_privateRequest {getPrice : GetPrice} {call : PrivateCall}
    (h : ∀ request, call = .addOrder request → request.orderType = .market →
      ∃ price, getPrice request.pair = .ok price) : ¬Uncaught (privateRequest getPrice call) := by
  cases call with
  | addOrder request =>
    rw [privateRequest, addOrder, getAmount]
    cases horder : request.orderType with
    | market =>
      obtain ⟨price, hprice⟩ := h request rfl horder
      rw [hprice]
      exact not_uncaught_ok _
    | limit => exact not_uncaught_ok _
    | _ => exact not_uncaught_mbException _
  | _ => exact not_uncaught_ok _

/-- Binance's client throws something else for its closed orders alone. -/
theorem Binance.not_uncaught_privateRequest
    (orderFilters : UnorderedMap TradablePair BinanceOrderFilters) (openOrders : List OrderDescription)
    {call : PrivateCall} (h : call ≠ .getClosedOrders) :
    ¬Uncaught (privateRequest orderFilters openOrders call) := by
  cases call with
  | getClosedOrders => exact absurd rfl h
  | addOrder request =>
    rw [privateRequest, addOrder, createOrderQuery]
    cases request.orderType with
    | takeProfit => exact not_uncaught_mbException _
    | _ => exact not_uncaught_ok _
  | cancelOrder orderId =>
    rw [privateRequest]
    split_ifs <;> exact not_uncaught_ok _
  | _ => exact not_uncaught_ok _

/-- A price that is asked for first is accounted for by its own reader. -/
theorem Bybit.accounted_withPrice {api : Api} {privateCall : PrivateCall} {next : GetPrice → Rest α}
    (h : ∀ getPrice, ¬Uncaught (privateRequest getPrice privateCall) → Accounted libs call (next getPrice)) :
    Accounted libs call (withPrice libs api privateCall next) := by
  cases privateCall with
  | addOrder request =>
    refine .priced (.sendHttpRequest _ (by rfl))
      (fun _ price => h _ (not_uncaught_privateRequest fun _ _ _ => ⟨price, rfl⟩)) fun hnone => ?_
    refine h _ (not_uncaught_privateRequest fun request' heq htaken => ?_)
    cases heq
    exact absurd htaken hnone
  | _ => exact h _ (not_uncaught_privateRequest nofun)

/-- The price of a market order, asked for first. -/
theorem Digifinex.accounted_withPrice {privateCall : PrivateCall} {next : GetPrice → Rest α}
    (h : ∀ getPrice, ¬Uncaught (privateRequest getPrice privateCall) → Accounted libs call (next getPrice)) :
    Accounted libs call (withPrice libs privateCall next) := by
  cases privateCall with
  | addOrder request =>
    refine .priced (.sendHttpRequest _ (by rfl))
      (fun _ price => h _ (not_uncaught_privateRequest fun _ _ _ => ⟨price, rfl⟩)) fun hnone => ?_
    refine h _ (not_uncaught_privateRequest fun request' heq htaken => ?_)
    cases heq
    exact absurd htaken hnone
  | _ => exact h _ (not_uncaught_privateRequest nofun)

/-! ## Calls -/

/-- Prices by their names, of which every one has to be that of a pair. -/
theorem accountsFor_createPairResultMap {pairs : List TradablePair} {sent : Sent}
    {reply : Except String HttpResponse} (names : Except Fault (UnorderedMap String ℚ))
    (hread : Uncaught names ↔ Unreadable libs (sent, reply))
    (hnames : namedPrices libs (sent, reply) = names.toOption) :
    AccountsFor libs (.getPrices pairs) [(sent, reply)] (names >>= createPairResultMap pairs) := by
  have hothers : NamesOthers libs (.getPrices pairs) (sent, reply) ↔
      ∃ found, names = .ok found ∧ ¬found.keys ⊆ (pairLookup pairs).keys := by
    rw [NamesOthers, hnames]
    simp only [Finset.subset_iff, Finmap.mem_keys, mem_pairLookup]
    constructor
    · rintro ⟨_, found, hpairs, hfound, name, hname, hother⟩
      cases hpairs
      cases names with
      | error fault => cases hfound
      | ok value =>
        cases hfound
        refine ⟨found, rfl, fun hall => ?_⟩
        obtain ⟨pair, hpair, heq⟩ := hall hname
        exact hother pair hpair heq
    · rintro ⟨found, rfl, hall⟩
      push Not at hall
      obtain ⟨name, hname, hother⟩ := hall
      exact ⟨pairs, found, rfl, rfl, name, hname, hother⟩
  rw [AccountsFor]
  simp only [List.mem_singleton, exists_eq_left, Derails]
  rw [hothers, ← hread]
  cases names with
  | error fault =>
    refine uncaught_error_iff.trans (uncaught_error_iff.symm.trans ⟨.inl, ?_⟩)
    rintro (huncaught | ⟨found, hfound, -⟩)
    · exact huncaught
    · cases hfound
  | ok found =>
    change Uncaught (createPairResultMap pairs found) ↔ _
    rw [createPairResultMap]
    split_ifs with hkeys
    · refine iff_of_false (not_uncaught_ok _) ?_
      rintro (huncaught | ⟨_, hfound, hnot⟩)
      · exact not_uncaught_ok _ huncaught
      · cases hfound
        exact hnot hkeys
    · exact iff_of_true ⟨_, rfl, rfl⟩ (.inr ⟨found, rfl, hkeys⟩)

/-- A request whose answer is one of named prices. -/
theorem Accounted.sendForNames {pairs : List TradablePair} (request : ℤ → HttpRequest)
    (reader : RestReader) (names : reader.Value → UnorderedMap String ℚ)
    (hreader : reader ≠ .binance .closedOrders)
    (hnames : ∀ reply, namedPrices libs (⟨request, reader⟩, reply) =
      (readReply libs reader reply).toOption.map names) :
    Accounted libs (.getPrices pairs) (do
      let value ← MarketBlocks.sendHttpRequest libs request reader
      createPairResultMap pairs (names value) : Rest (UnorderedMap TradablePair ℚ)) := by
  intro reply
  have hread := uncaught_readReply_iff libs ⟨request, reader⟩ hreader reply
  have hfound := hnames reply
  change Interaction.Always _ ((Interaction.done (readReply libs reader reply)).bind _)
  cases hreply : readReply libs reader reply with
  | ok value =>
    rw [hreply] at hread hfound
    exact accountsFor_createPairResultMap (.ok (names value))
      ((iff_of_false (not_uncaught_ok _) (not_uncaught_ok value)).trans hread) hfound
  | error fault =>
    rw [hreply] at hread hfound
    exact accountsFor_createPairResultMap (.error fault)
      ((uncaught_error_iff.trans uncaught_error_iff.symm).trans hread) hfound

/-- Every known interval has a length. -/
theorem accounted_secondsOf {interval : OhlcvInterval} (h : interval ≠ .unknown) :
    Accounted libs call (liftM (secondsOf interval) : Rest ℤ) := by
  rw [secondsOf, if_neg h]
  exact .pure _

/-- The prices of some pairs, which have to be found by Kraken's names. -/
theorem Kraken.accounted_getPrices {pairs : List TradablePair} (h : pairs ≠ []) :
    Accounted libs (.getPrices pairs) (getPrices libs pairs) := by
  rw [getPrices, createPairList, popBack_appendPairs h]
  exact .bind (.pure _) fun _ =>
    .sendForNames _ (.kraken .prices) (fun found => found) nofun fun _ => Option.map_id'.symm

/-- The calls of Kraken's client that are not forbidden. -/
theorem Kraken.accounted_perform (api : Api) (h : ¬(RestApi.kraken api).Forbids call) :
    Accounted libs call (perform libs api call) := by
  cases call with
  | getStatus => exact .answered _ (by rfl) _
  | getTradablePairs => exact .answered _ (by rfl) _
  | getOhlcv pair interval count =>
    exact .bind (.bind (accounted_secondsOf h) fun _ => .sendHttpRequest _ (by rfl)) fun _ => .pure _
  | getPrice pair => exact .answered _ (by rfl) _
  | getPrices pairs => exact .bind (accounted_getPrices h) fun _ => .pure _
  | getOrderBook pair depth => exact .answered _ (by rfl) _
  | getOrderBooks pairs depth => exact .eachAnswered _ (by rfl) pairs _
  | account privateCall =>
    have hrequest : ¬Uncaught (privateRequest privateCall) := by
      refine not_uncaught_privateRequest fun request heq => ?_
      subst heq
      exact h
    cases privateCall with
    | _ => exact .sendPrivately hrequest _ (by rfl) _
  | addOrderConfirm request => exact absurd trivial h

/-- The calls of Coinbase's client that are not forbidden. -/
theorem Coinbase.accounted_perform (api : Api) (h : ¬(RestApi.coinbase api).Forbids call) :
    Accounted libs call (perform libs api call) := by
  cases call with
  | getStatus => exact .pure _
  | getTradablePairs => exact .answered _ (by rfl) _
  | getOhlcv pair interval count =>
    exact .bind (.bind (accounted_secondsOf h) fun _ => .sendHttpRequest _ (by rfl)) fun _ => .pure _
  | getPrice pair => exact .answered _ (by rfl) _
  | getPrices pairs => exact .eachAnswered _ (by rfl) pairs _
  | getOrderBook pair depth => exact .answered _ (by rfl) _
  | getOrderBooks pairs depth => exact .eachAnswered _ (by rfl) pairs _
  | account privateCall =>
    have hrequest := not_uncaught_privateRequest libs.objectText privateCall
    cases privateCall with
    | _ => exact .sendPrivately hrequest _ (by rfl) _
  | addOrderConfirm request => exact absurd trivial h

/-- Bybit's private calls. -/
theorem Bybit.accounted_send {api : Api} {privateCall : PrivateCall} {reader : Reader}
    (hordinary : (RestReader.bybit reader).ordinary = true) (reply : reader.Value → RestReply) :
    Accounted libs call (perform.send libs api privateCall reader reply) :=
  accounted_withPrice fun _ hrequest => .sendPrivately hrequest _ hordinary reply

/-- The calls of Bybit's client that are not forbidden. -/
theorem Bybit.accounted_perform (api : Api) (fee : ℚ) (h : ¬(RestApi.bybit api fee).Forbids call) :
    Accounted libs call (perform libs api fee call) := by
  cases call with
  | getStatus => exact .answered _ (by rfl) _
  | getTradablePairs => exact .answered _ (by rfl) _
  | getOhlcv pair interval count => exact .answered _ (by rfl) _
  | getPrice pair => exact .answered _ (by rfl) _
  | getPrices pairs => exact .eachAnswered _ (by rfl) pairs _
  | getOrderBook pair depth => exact .answered _ (by rfl) _
  | getOrderBooks pairs depth => exact .eachAnswered _ (by rfl) pairs _
  | account privateCall =>
    cases privateCall with
    | getFee pair => exact .pure _
    | _ => exact accounted_send (by rfl) _
  | addOrderConfirm request => exact absurd trivial h

/-- Digifinex's private calls. -/
theorem Digifinex.accounted_send {api : Api} {privateCall : PrivateCall} {reader : Reader}
    (hordinary : (RestReader.digifinex reader).ordinary = true) (reply : reader.Value → RestReply) :
    Accounted libs call (perform.send libs api privateCall reader reply) :=
  accounted_withPrice fun _ hrequest => .sendPrivately hrequest _ hordinary reply

/-- The calls of Digifinex's client that are not forbidden. -/
theorem Digifinex.accounted_perform (api : Api) (h : ¬(RestApi.digifinex api).Forbids call) :
    Accounted libs call (perform libs api call) := by
  cases call with
  | getStatus => exact .answered _ (by rfl) _
  | getTradablePairs => exact .answered _ (by rfl) _
  | getOhlcv pair interval count =>
    have hperiod : ¬Uncaught (getOhlcvPeriod interval) := by
      cases interval with
      | unknown => exact absurd rfl h
      | _ => exact not_uncaught_ok _
    exact .bind (.bind (.lift hperiod) fun _ => .sendHttpRequest _ (by rfl)) fun _ => .pure _
  | getPrice pair => exact .answered _ (by rfl) _
  | getPrices pairs => exact .eachAnswered _ (by rfl) pairs _
  | getOrderBook pair depth => exact .answered _ (by rfl) _
  | getOrderBooks pairs depth => exact .eachAnswered _ (by rfl) pairs _
  | account privateCall =>
    cases privateCall with
    | getFee pair => exact .pure _
    | _ => exact accounted_send (by rfl) _
  | addOrderConfirm request => exact absurd trivial h

/-- The prices of pairs by Binance's names, of no pairs included. -/
theorem Binance.accounted_getPrices {api : Api} {pairs : List TradablePair} :
    Accounted libs (.getPrices pairs) (getPrices libs api pairs) := by
  have hsymbols : ¬Uncaught (createSymbolsList pairs) := by
    cases pairs with
    | nil => exact not_uncaught_ok _
    | cons pair rest =>
      rw [createSymbolsList_eq (List.cons_ne_nil pair rest)]
      exact not_uncaught_ok _
  exact .bind (.lift hsymbols) fun _ =>
    .sendForNames _ (.binance .prices) (fun found => found) nofun fun _ => Option.map_id'.symm

/-- Binance's private calls other than the closed orders. -/
theorem Binance.accounted_send {api : Api} {orderFilters : UnorderedMap TradablePair BinanceOrderFilters}
    {privateCall : PrivateCall} (h : privateCall ≠ .getClosedOrders) {reader : Reader}
    (hordinary : (RestReader.binance reader).ordinary = true) (reply : reader.Value → RestReply) :
    Accounted libs call (perform.send libs api orderFilters privateCall reader reply) := by
  have hopen : Accounted libs call (openOrdersFor libs api privateCall) := by
    cases privateCall with
    | cancelOrder orderId => exact .sendHttpRequest _ (by rfl)
    | _ => exact .pure _
  exact .bind hopen fun openOrders =>
    .bind (.sendPrivately (not_uncaught_privateRequest orderFilters openOrders h) _ hordinary reply)
      fun _ => .pure _

/-- The calls of Binance's client that are not forbidden. -/
theorem Binance.accounted_perform (api : Api)
    (orderFilters : UnorderedMap TradablePair BinanceOrderFilters)
    (h : ¬(RestApi.binance api orderFilters).Forbids call) :
    Accounted libs call (perform libs api orderFilters call) := by
  cases call with
  | getStatus => exact .answered _ (by rfl) _
  | getTradablePairs => exact .answered _ (by rfl) _
  | getOhlcv pair interval count => exact .answered _ (by rfl) _
  | getPrice pair => exact .answered _ (by rfl) _
  | getPrices pairs => exact .bind accounted_getPrices fun _ => .pure _
  | getOrderBook pair depth => exact .answered _ (by rfl) _
  | getOrderBooks pairs depth => exact .eachAnswered _ (by rfl) pairs _
  | account privateCall =>
    cases privateCall with
    | getClosedOrders => exact absurd trivial h
    | _ => exact accounted_send (by nofun) (by rfl) _
  | addOrderConfirm request => exact accounted_send (by nofun) (by rfl) _

/-- An exchange accounts for the calls that it does not forbid. -/
theorem RestApi.accounted_perform (libs : RestLibraries) (api : RestApi) (h : ¬api.Forbids call) :
    Accounted libs call (api.perform libs call) := by
  cases api with
  | kraken api => exact .bind (Kraken.accounted_perform api h) fun _ => .pure _
  | coinbase api => exact .bind (Coinbase.accounted_perform api h) fun _ => .pure _
  | bybit api fee => exact .bind (Bybit.accounted_perform api fee h) fun _ => .pure _
  | digifinex api => exact .bind (Digifinex.accounted_perform api h) fun _ => .pure _
  | binance api orderFilters => exact .bind (Binance.accounted_perform api orderFilters h) fun _ => .pure _

/-- A forbidden call sends nothing, and throws. -/
theorem RestApi.perform_of_forbids (libs : RestLibraries) {api : RestApi} (h : api.Forbids call) :
    ∃ fault, fault.isMbException = false ∧
      api.perform libs call =
        (.done (.error fault) : Interaction _ _ (Except Fault (RestReply × RestApi))) := by
  cases api with
  | kraken api =>
    cases call with
    | getOhlcv pair interval count =>
      obtain rfl : interval = .unknown := h
      exact ⟨.undefined, rfl, rfl⟩
    | getPrices pairs =>
      obtain rfl : pairs = [] := h
      exact ⟨.undefined, rfl, rfl⟩
    | account privateCall =>
      cases privateCall with
      | addOrder request =>
        have htype : request.orderType = .trailingStopLoss := h
        have hrequest : Kraken.privateRequest (.addOrder request) = .error .otherException := by
          rw [Kraken.privateRequest, Kraken.addOrder, htype]
          rfl
        refine ⟨.otherException, rfl, ?_⟩
        rw [RestApi.perform, Kraken.perform, Kraken.perform.send, hrequest]
        rfl
      | _ => exact h.elim
    | addOrderConfirm request => exact ⟨.otherException, rfl, rfl⟩
    | _ => exact h.elim
  | coinbase api =>
    cases call with
    | getOhlcv pair interval count =>
      obtain rfl : interval = .unknown := h
      exact ⟨.undefined, rfl, rfl⟩
    | addOrderConfirm request => exact ⟨.otherException, rfl, rfl⟩
    | _ => exact h.elim
  | bybit api fee =>
    cases call with
    | addOrderConfirm request => exact ⟨.otherException, rfl, rfl⟩
    | _ => exact h.elim
  | digifinex api =>
    cases call with
    | getOhlcv pair interval count =>
      obtain rfl : interval = .unknown := h
      exact ⟨.undefined, rfl, rfl⟩
    | addOrderConfirm request => exact ⟨.otherException, rfl, rfl⟩
    | _ => exact h.elim
  | binance api orderFilters =>
    cases call with
    | account privateCall =>
      cases privateCall with
      | getClosedOrders => exact ⟨.otherException, rfl, rfl⟩
      | _ => exact h.elim
    | _ => exact h.elim

/-- A call is to blame for what it throws: it is forbidden, or an answer derails it. -/
def RestApi.Blamed (libs : RestLibraries) {ν : Type*} (service : HttpService ν) (api : RestApi)
    (call : RestCall) (state : ν) : Prop :=
  api.Forbids call ∨
    ∃ entry ∈ (api.perform libs call).run.transcript service.answer state, Derails libs call entry

/-- A call lets something escape that the runner does not catch exactly when it is to blame for it.
-/
theorem RestApi.uncaught_perform_iff (libs : RestLibraries) {ν : Type*} (service : HttpService ν)
    (api : RestApi) (call : RestCall) (state : ν) :
    Uncaught ((api.perform libs call).run.run service.answer state).1 ↔
      api.Blamed libs service call state := by
  by_cases hforbids : api.Forbids call
  · obtain ⟨fault, hfault, hperform⟩ := perform_of_forbids libs hforbids
    rw [hperform]
    exact iff_of_true ⟨fault, rfl, hfault⟩ (.inl hforbids)
  · have haccounts := (api.accounted_perform libs hforbids).run service.answer state
    exact haccounts.trans ⟨.inr, fun h => h.resolve_left hforbids⟩

end MarketBlocks
