import MarketBlocks.Library.Runs
import MarketBlocks.Websockets.BinanceWebsocket
import MarketBlocks.Websockets.BybitWebsocket
import MarketBlocks.Websockets.CoinbaseWebsocket
import MarketBlocks.Websockets.DigifinexWebsocket
import MarketBlocks.Websockets.KrakenWebsocket

/-!
# The five implementations

Every implementation of `exchange_websocket_stream` keeps one discipline towards the caches: a
message writes the entries of the feeds that it is about, a subscription those of the candles that
it loads, and an unsubscription none. `StreamImplementation` states it once, so that what follows
from it holds of all five.
-/

namespace MarketBlocks

open Library

namespace BinanceWebsocketStream

/-- The caches of one stream are moved to those of another by writing to some keys. -/
def Writes (keys : List CacheKey) (s s' : BinanceWebsocketStream) : Prop :=
  ExchangeWebsocketStream.Writes keys s.toExchangeWebsocketStream s'.toExchangeWebsocketStream

variable {keys : List CacheKey}

/-- Nothing is written. -/
theorem Writes.refl (s : BinanceWebsocketStream) : Writes keys s s :=
  ExchangeWebsocketStream.Writes.refl keys _

/-- One write after the other. -/
theorem Writes.trans {s s' s'' : BinanceWebsocketStream} (h : Writes keys s s')
    (h' : Writes keys s' s'') : Writes keys s s'' :=
  ExchangeWebsocketStream.Writes.trans h h'

/-- The keys of the feed that a message is about. -/
def messageKeys : BinanceMessage → List CacheKey
  | .trade message =>
    match message.symbol with
    | .ok symbol => [.trade symbol]
    | .error _ => []
  | .kline message =>
    match message.symbol, message.interval with
    | .ok symbol, .ok interval => [.ohlcv (createOhlcvSubId symbol (parseOhlcvInterval interval))]
    | _, _ => []
  | .depthUpdate message =>
    match message.symbol with
    | .ok symbol => [.orderBook symbol]
    | .error _ => []
  | .unreadable _ | .notice _ | .other => []

/-- What is read of a trade is about the symbol of its message. -/
theorem symbol_of_read_trade {message : TradeMessage} {symbol : String} {trade : TradeUpdate}
    (h : message.read = .ok (symbol, trade)) : message.symbol = .ok symbol := by
  obtain ⟨read, hsymbol, h⟩ := exists_of_bind_eq_ok h
  obtain ⟨price, -, h⟩ := exists_of_bind_eq_ok h
  obtain ⟨volume, -, h⟩ := exists_of_bind_eq_ok h
  obtain ⟨time, -, h⟩ := exists_of_bind_eq_ok h
  cases h
  exact hsymbol

/-- What is read of a candle is about the symbol and the interval of its message. -/
theorem symbol_of_read_kline {message : KlineMessage} {symbol : String} {interval : OhlcvInterval}
    {ohlcv : OhlcvData} (h : message.read = .ok (symbol, interval, ohlcv)) :
    message.symbol = .ok symbol ∧
      ∃ name, message.interval = .ok name ∧ parseOhlcvInterval name = interval := by
  obtain ⟨read, hsymbol, h⟩ := exists_of_bind_eq_ok h
  obtain ⟨name, hname, h⟩ := exists_of_bind_eq_ok h
  obtain ⟨startTime, -, h⟩ := exists_of_bind_eq_ok h
  obtain ⟨«open», -, h⟩ := exists_of_bind_eq_ok h
  obtain ⟨high, -, h⟩ := exists_of_bind_eq_ok h
  obtain ⟨low, -, h⟩ := exists_of_bind_eq_ok h
  obtain ⟨close, -, h⟩ := exists_of_bind_eq_ok h
  obtain ⟨volume, -, h⟩ := exists_of_bind_eq_ok h
  cases h
  exact ⟨hsymbol, name, hname, rfl⟩

/-- The entries of one side are written to the book of their pair. -/
theorem processOrderBookElement_writes (side : OrderBookSide) (pair : String) (id : ℤ)
    (entries : List DepthEntry) (s : BinanceWebsocketStream) :
    Writes [.orderBook pair] s (processOrderBookElement side pair id entries s).2 := by
  induction entries generalizing s with
  | nil => exact .refl s
  | cons entry rest ih =>
    rcases entry with fault | ⟨price, volume⟩
    · exact .refl s
    · have hupdate : Writes [.orderBook pair] s
          (s.common (·.updateOrderBook pair id ⟨price, volume, side⟩)).2 :=
        ExchangeWebsocketStream.updateOrderBook_writes pair id ⟨price, volume, side⟩ _
      unfold processOrderBookElement
      split
      · next hresult => rwa [hresult] at hupdate
      · next hresult =>
        rw [hresult] at hupdate
        exact hupdate.trans (ih _)

/-- The entries that are read of a side, which may not be readable, are written to the book of their
pair. -/
theorem processOrderBookSide_writes (side : OrderBookSide) (pair : String) (id : ℤ)
    (element : Except Fault (List DepthEntry)) (s : BinanceWebsocketStream) :
    Writes [.orderBook pair] s (processOrderBookSide side pair id element s).2 := by
  cases element with
  | error fault => exact .refl s
  | ok entries => exact processOrderBookElement_writes side pair id entries s

/-- The entries of both sides of an update are written to the book of their pair. -/
theorem applyOrderBook_writes (symbol : String) (finalUpdateId : ℤ) (message : DepthUpdate)
    (s : BinanceWebsocketStream) :
    Writes [.orderBook symbol] s (s.applyOrderBook symbol finalUpdateId message).2 := by
  have hasks := processOrderBookSide_writes .ask symbol finalUpdateId message.asks s
  unfold applyOrderBook
  split
  · next s₁ hresult =>
    rw [hresult] at hasks
    exact hasks
  · next s₁ hresult =>
    rw [hresult] at hasks
    have hbids := processOrderBookSide_writes .bid symbol finalUpdateId message.bids s₁
    split
    · next s₂ hresult' =>
      rw [hresult'] at hbids
      exact hasks.trans hbids
    · next s₂ hresult' =>
      rw [hresult'] at hbids
      exact hasks.trans hbids

/-- A book that is loaded is written to its own key. -/
theorem loadOrderBook_writes (symbol : String) (network : Network) (s : BinanceWebsocketStream) :
    Writes [.orderBook symbol] s (s.loadOrderBook symbol network).2 := by
  unfold loadOrderBook
  split
  · exact .refl s
  · split
    · exact .refl s
    · exact ExchangeWebsocketStream.initialiseOrderBook_writes symbol _ _

/-- A message about a book writes to the book of its symbol. -/
theorem processOrderBookMessage_writes (message : DepthUpdate) (network : Network)
    (s : BinanceWebsocketStream) :
    Writes (messageKeys (.depthUpdate message)) s (s.processOrderBookMessage message network).2 := by
  cases hsymbol : message.symbol with
  | error fault =>
    simp only [processOrderBookMessage, hsymbol]
    exact .refl s
  | ok symbol =>
    simp only [processOrderBookMessage, messageKeys, hsymbol]
    split
    · exact loadOrderBook_writes symbol network s
    · split
      · exact .refl s
      · split
        · exact .refl s
        · exact applyOrderBook_writes symbol _ message s

/-- A message writes the feed that it is about only. -/
theorem onMessage_writes (message : BinanceMessage) (network : Network)
    (s : BinanceWebsocketStream) :
    Writes (messageKeys message) s (s.onMessage message network).2 := by
  cases message with
  | unreadable | notice | other => exact .refl s
  | trade message =>
    change Writes _ s (s.processTradeMessage message).2
    unfold processTradeMessage
    cases hread : message.read with
    | error fault => exact .refl s
    | ok read =>
      obtain ⟨symbol, trade⟩ := read
      simp only [messageKeys, symbol_of_read_trade hread]
      exact ExchangeWebsocketStream.updateTrade_writes symbol trade _
  | kline message =>
    change Writes _ s (s.processOhlcvMessage message).2
    unfold processOhlcvMessage
    cases hread : message.read with
    | error fault => exact .refl s
    | ok read =>
      obtain ⟨symbol, interval, ohlcv⟩ := read
      obtain ⟨hsymbol, name, hname, rfl⟩ := symbol_of_read_kline hread
      simp only [messageKeys, hsymbol, hname]
      exact ExchangeWebsocketStream.updateOhlcv_writes symbol (parseOhlcvInterval name) ohlcv _
  | depthUpdate message => exact processOrderBookMessage_writes message network s

/-- Sending a subscription leaves the common stream alone. -/
theorem sendSubscription_stream (method : String) (subscription : WebsocketSubscription)
    (network : Network) (s : BinanceWebsocketStream) :
    (s.sendSubscription method subscription network).2.toExchangeWebsocketStream =
      s.toExchangeWebsocketStream := by
  unfold sendSubscription sendMessage
  split
  · rfl
  · split
    · split <;> rfl
    · rfl

end BinanceWebsocketStream

/-! ## The common discipline -/

/-- What a stream is there for: the messages of its exchange, and the two calls. -/
inductive StreamEvent (Message : Type) where
  | message (message : Message)
  | subscribe (subscription : WebsocketSubscription)
  | unsubscribe (subscription : WebsocketSubscription)

/-- An implementation of `exchange_websocket_stream`, with the keys of the feeds that an event
brings data for. -/
structure StreamImplementation where
  State : Type
  Message : Type
  create : State
  stream : State → ExchangeWebsocketStream
  onMessage : Message → MarketNetwork → State → Except Fault Unit × State
  subscribe : WebsocketSubscription → MarketNetwork → State → Except Fault Unit × State
  unsubscribe : WebsocketSubscription → MarketNetwork → State → Except Fault Unit × State
  messageKeys : Message → State → List CacheKey
  loadedKeys : WebsocketSubscription → State → List CacheKey
  onMessage_writes : ∀ message network s,
    ExchangeWebsocketStream.Writes (messageKeys message s) (stream s)
      (stream (onMessage message network s).2)
  subscribe_writes : ∀ subscription network s,
    ExchangeWebsocketStream.Writes (loadedKeys subscription s) (stream s)
      (stream (subscribe subscription network s).2)
  unsubscribe_stream : ∀ subscription network s,
    stream (unsubscribe subscription network s).2 = stream s
  complete_of_unsubscribe : ∀ subscription network s,
    (unsubscribe subscription network s).1 = .ok () → subscription.Complete

namespace StreamImplementation

/-- What happens on a stream of any implementation. -/
def handle (implementation : StreamImplementation) (event : StreamEvent implementation.Message)
    (network : MarketNetwork) (s : implementation.State) :
    Except Fault Unit × implementation.State :=
  match event with
  | .message message => implementation.onMessage message network s
  | .subscribe subscription => implementation.subscribe subscription network s
  | .unsubscribe subscription => implementation.unsubscribe subscription network s

/-- What one event makes of the stream, whether it returns or throws. -/
def step (implementation : StreamImplementation) (s : implementation.State)
    (input : StreamEvent implementation.Message × MarketNetwork) : implementation.State :=
  (implementation.handle input.1 input.2 s).2

/-- The keys of the feeds that an event brings data for. -/
def eventKeys (implementation : StreamImplementation) (s : implementation.State)
    (input : StreamEvent implementation.Message × MarketNetwork) : List CacheKey :=
  match input.1 with
  | .message message => implementation.messageKeys message s
  | .subscribe subscription => implementation.loadedKeys subscription s
  | .unsubscribe _ => []

/-- An event writes the feeds that it brings data for, and nothing else. -/
theorem step_writes (implementation : StreamImplementation) (s : implementation.State)
    (input : StreamEvent implementation.Message × MarketNetwork) :
    ExchangeWebsocketStream.Writes (implementation.eventKeys s input) (implementation.stream s)
      (implementation.stream (implementation.step s input)) := by
  obtain ⟨event, network⟩ := input
  cases event with
  | message message => exact implementation.onMessage_writes message network s
  | subscribe subscription => exact implementation.subscribe_writes subscription network s
  | unsubscribe subscription =>
    have hsame := implementation.unsubscribe_stream subscription network s
    unfold step handle
    rw [hsame]
    exact .refl _ _

/-- Events that bring no data for a key leave its entry as it is. -/
theorem run_cached (implementation : StreamImplementation) {key : CacheKey} {s : implementation.State}
    {inputs : List (StreamEvent implementation.Message × MarketNetwork)}
    (hquiet : EveryStep implementation.step (fun s input => key ∉ implementation.eventKeys s input)
      s inputs) :
    (implementation.stream (inputs.foldl implementation.step s)).cached key =
      (implementation.stream s).cached key := by
  refine hquiet.invariant
    (I := fun s' => (implementation.stream s').cached key = (implementation.stream s).cached key)
    (fun s' input hkept hother => ?_) rfl
  exact ((implementation.step_writes s' input).others key hother).trans hkept

/-- No event changes the separator. -/
theorem run_pairSeparator (implementation : StreamImplementation) (s : implementation.State)
    (inputs : List (StreamEvent implementation.Message × MarketNetwork)) :
    (implementation.stream (inputs.foldl implementation.step s)).pairSeparator =
      (implementation.stream s).pairSeparator :=
  foldl_invariant
    (I := fun s' => (implementation.stream s').pairSeparator =
      (implementation.stream s).pairSeparator)
    (fun s' input hkept => (implementation.step_writes s' input).pairSeparator.trans hkept) inputs rfl

end StreamImplementation

/-! ## What returns -/

/-- A subscription with an interval is complete. -/
theorem BasicWebsocketSubscription.complete_of_getOhlcvInterval {PairItem : Type}
    {subscription : BasicWebsocketSubscription PairItem} {interval : OhlcvInterval}
    (h : subscription.getOhlcvInterval = .ok interval) : subscription.Complete := by
  intro _ hnone
  rw [getOhlcvInterval, hnone] at h
  cases h

/-- What is sent has been created. -/
theorem SendingStream.exists_of_send_eq_ok {μ : Type} {network : Network} {message : Except Fault μ}
    {s : SendingStream μ} (h : (s.send network message).1 = .ok ()) : ∃ sent, message = .ok sent := by
  cases message with
  | error fault => cases h
  | ok sent => exact ⟨sent, rfl⟩

/-- Candles are unsubscribed at the service, which asks for the interval. -/
theorem ServicedStream.complete_of_sendUnsubscribe {μ : Type}
    {createMessage : WebsocketSubscription → Except Fault μ} {subscription : WebsocketSubscription}
    {network : MarketNetwork} {s : ServicedStream μ}
    (h : (s.sendUnsubscribe createMessage subscription network).1 = .ok ()) :
    subscription.Complete := by
  intro hchannel
  rw [sendUnsubscribe, if_pos hchannel] at h
  cases hinterval : subscription.getOhlcvInterval with
  | error fault => simp [OhlcvSubscriptionService.removeSubscription, hinterval, withRead] at h
  | ok interval =>
    exact BasicWebsocketSubscription.complete_of_getOhlcvInterval hinterval hchannel

/-- The name of the candle channel of Binance contains the interval. -/
theorem BinanceWebsocketStream.complete_of_sendSubscription {method : String}
    {subscription : WebsocketSubscription} {network : Network} {s : BinanceWebsocketStream}
    (h : (s.sendSubscription method subscription network).1 = .ok ()) : subscription.Complete := by
  intro hchannel hnone
  simp [sendSubscription, getChannelName, hchannel, hnone] at h

/-- The topic of the candle channel of Bybit contains the interval. -/
theorem BybitWebsocketStream.complete_of_createMessage {eventName : String}
    {subscription : WebsocketSubscription} {request : BybitRequest}
    (h : createMessage eventName subscription = .ok request) : subscription.Complete := by
  obtain ⟨topic, htopic, -⟩ := exists_of_bind_eq_ok h
  intro hchannel
  cases hinterval : subscription.getOhlcvInterval with
  | error fault => simp [getTopic, hchannel, hinterval, Except.map] at htopic
  | ok interval =>
    exact BasicWebsocketSubscription.complete_of_getOhlcvInterval hinterval hchannel

/-- Kraken's request has a member for the interval. -/
theorem KrakenWebsocketStream.complete_of_createMessage {eventName : String}
    {subscription : WebsocketSubscription} {request : KrakenRequest}
    (h : createMessage eventName subscription = .ok request) : subscription.Complete := by
  intro hchannel
  simp only [createMessage, hchannel] at h
  obtain ⟨interval, hinterval, -⟩ := exists_of_bind_eq_ok h
  exact BasicWebsocketSubscription.complete_of_getOhlcvInterval hinterval hchannel

/-! ## The implementations -/

/-- Binance's stream, which asks for the book alone. -/
def BinanceWebsocketStream.implementation : StreamImplementation where
  State := BinanceWebsocketStream
  Message := BinanceMessage
  create := .create
  stream := BinanceWebsocketStream.toExchangeWebsocketStream
  onMessage message network s := s.onMessage message network.toNetwork
  subscribe subscription network s := s.subscribe subscription network.toNetwork
  unsubscribe subscription network s := s.unsubscribe subscription network.toNetwork
  messageKeys message _ := messageKeys message
  loadedKeys _ _ := []
  onMessage_writes message network s := s.onMessage_writes message network.toNetwork
  subscribe_writes subscription network s := by
    rw [subscribe, sendSubscription_stream]
    exact ExchangeWebsocketStream.registerPairs_writes _ _
  unsubscribe_stream subscription network s :=
    s.sendSubscription_stream "UNSUBSCRIBE" subscription network.toNetwork
  complete_of_unsubscribe _ _ _ h := complete_of_sendSubscription h

/-- Bybit's stream. -/
def BybitWebsocketStream.implementation : StreamImplementation where
  State := BybitWebsocketStream
  Message := BybitMessage
  create := create
  stream := SendingStream.toExchangeWebsocketStream
  onMessage := onMessage
  subscribe := subscribe
  unsubscribe := unsubscribe
  messageKeys message _ := messageKeys message
  loadedKeys _ _ := []
  onMessage_writes := onMessage_writes
  subscribe_writes := SendingStream.subscribe_writes (createMessage "sub")
  unsubscribe_stream _ network s := SendingStream.send_stream network.toNetwork _ s
  complete_of_unsubscribe _ _ _ h :=
    let ⟨_, hsent⟩ := SendingStream.exists_of_send_eq_ok h
    complete_of_createMessage hsent

/-- Coinbase's stream. -/
def CoinbaseWebsocketStream.implementation : StreamImplementation where
  State := CoinbaseWebsocketStream
  Message := CoinbaseMessage
  create := create
  stream s := s.toExchangeWebsocketStream
  onMessage := onMessage
  subscribe := subscribe
  unsubscribe := unsubscribe
  messageKeys := messageKeys
  loadedKeys subscription s := ServicedStream.loadedKeys s.pairSeparator subscription
  onMessage_writes := onMessage_writes
  subscribe_writes := ServicedStream.subscribe_writes (createMessage "subscribe")
  unsubscribe_stream := ServicedStream.sendUnsubscribe_stream (createMessage "unsubscribe")
  complete_of_unsubscribe _ _ _ h := ServicedStream.complete_of_sendUnsubscribe h

/-- Digifinex's stream. -/
def DigifinexWebsocketStream.implementation : StreamImplementation where
  State := DigifinexWebsocketStream
  Message := DigifinexMessage
  create := create
  stream s := s.toExchangeWebsocketStream
  onMessage := onMessage
  subscribe := subscribe
  unsubscribe := unsubscribe
  messageKeys := messageKeys
  loadedKeys subscription s := ServicedStream.loadedKeys s.pairSeparator subscription
  onMessage_writes := onMessage_writes
  subscribe_writes := ServicedStream.subscribe_writes (createMessage "subscribe")
  unsubscribe_stream := ServicedStream.sendUnsubscribe_stream (createMessage "unsubscribe")
  complete_of_unsubscribe _ _ _ h := ServicedStream.complete_of_sendUnsubscribe h

/-- Kraken's stream. -/
def KrakenWebsocketStream.implementation : StreamImplementation where
  State := KrakenWebsocketStream
  Message := KrakenMessage
  create := create
  stream := SendingStream.toExchangeWebsocketStream
  onMessage := onMessage
  subscribe := subscribe
  unsubscribe := unsubscribe
  messageKeys message _ := messageKeys message
  loadedKeys _ _ := []
  onMessage_writes := onMessage_writes
  subscribe_writes := SendingStream.subscribe_writes (createMessage "subscribe")
  unsubscribe_stream _ network s := SendingStream.send_stream network.toNetwork _ s
  complete_of_unsubscribe _ _ _ h :=
    let ⟨_, hsent⟩ := SendingStream.exists_of_send_eq_ok h
    complete_of_createMessage hsent

/-- The exchanges with a stream. -/
inductive StreamExchange where
  | binance
  | bybit
  | coinbase
  | digifinex
  | kraken
  deriving DecidableEq, Repr

/-- The implementation of an exchange. -/
def StreamExchange.implementation : StreamExchange → StreamImplementation
  | .binance => BinanceWebsocketStream.implementation
  | .bybit => BybitWebsocketStream.implementation
  | .coinbase => CoinbaseWebsocketStream.implementation
  | .digifinex => DigifinexWebsocketStream.implementation
  | .kraken => KrakenWebsocketStream.implementation

end MarketBlocks
