import MarketBlocks.Websockets.OhlcvSubscriptionService
import MarketBlocks.Websockets.StreamCaches

/-!
# Streams that send

What the implementations of `exchange_websocket_stream` have in common: they create a message of
their own form for every subscription and hand it to the connection. Those of Coinbase and Digifinex
have no candle channel. They make their candles out of trades with an `ohlcv_subscription_service`,
and their functions for it differ in the messages only.
-/

namespace MarketBlocks

open Library

/-- What a stream finds around it while one call runs: the network with the candles that the REST
API reports, the clock, and the order in which intervals are walked. -/
structure MarketNetwork extends Network where
  getOhlcv : GetOhlcv
  now : ℤ
  order : IntervalOrder

/-- A network without failures and with nothing to report. -/
def MarketNetwork.idle : MarketNetwork where
  toNetwork := .reporting ⟨0, [], []⟩
  getOhlcv := fun _ _ _ => .ok []
  now := 0
  order := ⟨_, .refl _⟩

/-- A stream with the messages handed to its connection. -/
structure SendingStream (μ : Type) extends ExchangeWebsocketStream where
  sent : List μ

/-- A stream that makes its candles out of trades. -/
structure ServicedStream (μ : Type) extends SendingStream μ where
  ohlcvSubscriptionService : OhlcvSubscriptionService

variable {μ : Type} {keys : List CacheKey}

namespace SendingStream

/-- A new stream, which has sent nothing. -/
def create (pairSeparator : Char) : SendingStream μ where
  toExchangeWebsocketStream := .create pairSeparator
  sent := []

/-- A function of the common stream, at work in this one. -/
def common (f : ExchangeWebsocketStream → Except Fault Unit × ExchangeWebsocketStream)
    (s : SendingStream μ) : Except Fault Unit × SendingStream μ :=
  let (result, stream) := f s.toExchangeWebsocketStream
  (result, { s with toExchangeWebsocketStream := stream })

/-- `send_message` of the connection, which has to be there. -/
def sendMessage (network : Network) (message : μ) (s : SendingStream μ) :
    Except Fault Unit × SendingStream μ :=
  if s.connection then
    match network.sendMessage with
    | .error fault => (.error fault, s)
    | .ok () => (.ok (), { s with sent := s.sent ++ [message] })
  else (.error .undefined, s)

/-- Create a message and send it. -/
def send (network : Network) (message : Except Fault μ) (s : SendingStream μ) :
    Except Fault Unit × SendingStream μ :=
  withRead message (sendMessage network) s

/-- The part of `subscribe` before `send_subscribe`. -/
def register (pairItem : List TradablePair) (s : SendingStream μ) : SendingStream μ :=
  { s with toExchangeWebsocketStream := s.registerPairs pairItem }

/-- `unsubscribe`, and with the pairs registered before `subscribe`, of the streams that send a
message for every subscription. -/
def sendSubscription (createMessage : WebsocketSubscription → Except Fault μ)
    (subscription : WebsocketSubscription) (network : MarketNetwork) (s : SendingStream μ) :
    Except Fault Unit × SendingStream μ :=
  s.send network.toNetwork (createMessage subscription)

/-- `subscribe`: the pairs are registered before the message is made. -/
def subscribe (createMessage : WebsocketSubscription → Except Fault μ)
    (subscription : WebsocketSubscription) (network : MarketNetwork) (s : SendingStream μ) :
    Except Fault Unit × SendingStream μ :=
  sendSubscription createMessage subscription network (s.register subscription.pairItem)

/-- Sending leaves the common stream alone. -/
theorem send_stream (network : Network) (message : Except Fault μ) (s : SendingStream μ) :
    (s.send network message).2.toExchangeWebsocketStream = s.toExchangeWebsocketStream := by
  unfold send withRead sendMessage
  split
  · rfl
  · split
    · split <;> rfl
    · rfl

/-- The caches of one stream are moved to those of another by writing to some keys. -/
def Writes (keys : List CacheKey) (s s' : SendingStream μ) : Prop :=
  ExchangeWebsocketStream.Writes keys s.toExchangeWebsocketStream s'.toExchangeWebsocketStream

/-- Nothing is written. -/
theorem Writes.refl (s : SendingStream μ) : Writes keys s s :=
  ExchangeWebsocketStream.Writes.refl keys _

/-- One write after the other. -/
theorem Writes.trans (s s' s'' : SendingStream μ) (h : Writes keys s s') (h' : Writes keys s' s'') :
    Writes keys s s'' :=
  ExchangeWebsocketStream.Writes.trans h h'

/-- What a function of the common stream writes, it writes at work in a stream. -/
theorem common_writes {f : ExchangeWebsocketStream → Except Fault Unit × ExchangeWebsocketStream}
    (hwrites : ∀ stream, ExchangeWebsocketStream.Writes keys stream (f stream).2)
    (s : SendingStream μ) : Writes keys s (s.common f).2 :=
  hwrites s.toExchangeWebsocketStream

/-- Subscribing registers pairs and sends, and so writes nothing. -/
theorem subscribe_writes (createMessage : WebsocketSubscription → Except Fault μ)
    (subscription : WebsocketSubscription) (network : MarketNetwork) (s : SendingStream μ) :
    Writes keys s (s.subscribe createMessage subscription network).2 := by
  have hregistered : Writes keys s (s.register subscription.pairItem) :=
    ExchangeWebsocketStream.registerPairs_writes _ _
  refine hregistered.trans _ _ _ ?_
  unfold Writes subscribe sendSubscription
  rw [send_stream]
  exact .refl keys _

end SendingStream

namespace ServicedStream

/-- A new stream with a new service. -/
def create (pairSeparator : Char) : ServicedStream μ where
  toSendingStream := .create pairSeparator
  ohlcvSubscriptionService := .create

/-- A function of the sending stream, at work in this one. -/
def sending (f : SendingStream μ → Except Fault Unit × SendingStream μ) (s : ServicedStream μ) :
    Except Fault Unit × ServicedStream μ :=
  let (result, stream) := f s.toSendingStream
  (result, { s with toSendingStream := stream })

/-- A function of the service, whose owner is the common stream. -/
def service
    (f : OhlcvSubscriptionService × ExchangeWebsocketStream →
      Except Fault Unit × (OhlcvSubscriptionService × ExchangeWebsocketStream))
    (s : ServicedStream μ) : Except Fault Unit × ServicedStream μ :=
  let (result, ohlcvSubscriptionService, stream) :=
    f (s.ohlcvSubscriptionService, s.toExchangeWebsocketStream)
  (result, { s with toExchangeWebsocketStream := stream, ohlcvSubscriptionService })

/-- The function that the constructor hands to the service. -/
def updateOhlcv : UpdateOhlcv ExchangeWebsocketStream :=
  fun pairName interval ohlcv stream => stream.updateOhlcv pairName interval ohlcv

/-- The end of `process_trade_message`. -/
def processTrade (network : MarketNetwork) (pairName : String) (trade : TradeUpdate)
    (s : ServicedStream μ) : Except Fault Unit × ServicedStream μ :=
  andThen (s.sending (·.common (·.updateTrade pairName trade))) fun s =>
    if s.ohlcvSubscriptionService.isSubscribed pairName then
      s.service (OhlcvSubscriptionService.updateAll network.order updateOhlcv pairName
        trade.timeStamp trade.price trade.volume)
    else (.ok (), s)

/-- `send_subscribe`: candles need the trades of their pairs. -/
def sendSubscribe (createMessage : WebsocketSubscription → Except Fault μ)
    (subscription : WebsocketSubscription) (network : MarketNetwork) (s : ServicedStream μ) :
    Except Fault Unit × ServicedStream μ :=
  if subscription.channel = .ohlcv then
    andThen (s.sending (·.send network.toNetwork
        (createMessage (.createTradeSub subscription.pairItem)))) fun s =>
      s.service (OhlcvSubscriptionService.addSubscription s.pairSeparator network.getOhlcv
        updateOhlcv subscription)
  else s.sending (·.send network.toNetwork (createMessage subscription))

/-- `send_unsubscribe`. -/
def sendUnsubscribe (createMessage : WebsocketSubscription → Except Fault μ)
    (subscription : WebsocketSubscription) (network : MarketNetwork) (s : ServicedStream μ) :
    Except Fault Unit × ServicedStream μ :=
  if subscription.channel = .ohlcv then
    let (result, ohlcvSubscriptionService) :=
      s.ohlcvSubscriptionService.removeSubscription s.pairSeparator subscription
    (result, { s with ohlcvSubscriptionService })
  else s.sending (·.send network.toNetwork (createMessage subscription))

/-- The part of `subscribe` before `send_subscribe`. -/
def register (pairItem : List TradablePair) (s : ServicedStream μ) : ServicedStream μ :=
  { s with toSendingStream := s.toSendingStream.register pairItem }

/-- `subscribe`: the pairs are registered before anything is loaded or sent. -/
def subscribe (createMessage : WebsocketSubscription → Except Fault μ)
    (subscription : WebsocketSubscription) (network : MarketNetwork) (s : ServicedStream μ) :
    Except Fault Unit × ServicedStream μ :=
  sendSubscribe createMessage subscription network (s.register subscription.pairItem)

/-! ## What the calls write -/

/-- The keys of the candles that a trade of a pair updates. -/
def candleKeys (pairName : String) (s : ServicedStream μ) : List CacheKey :=
  (([.m1, .m5, .m15, .h1, .d1, .w1, .unknown] : List OhlcvInterval).filter
    (· ∈ s.ohlcvSubscriptionService.builders pairName)).map
      fun interval => .ohlcv (createOhlcvSubId pairName interval)

/-- The keys of the candles that a subscription loads. -/
def loadedKeys (pairSeparator : Char) (subscription : WebsocketSubscription) : List CacheKey :=
  if subscription.channel = .ohlcv then
    subscription.pairItem.map fun pair =>
      .ohlcv (createOhlcvSubId (pair.toStringWith pairSeparator)
        (subscription.parameter.getD .unknown))
  else []

/-- The caches of one stream are moved to those of another by writing to some keys. -/
def Writes (keys : List CacheKey) (s s' : ServicedStream μ) : Prop :=
  ExchangeWebsocketStream.Writes keys s.toExchangeWebsocketStream s'.toExchangeWebsocketStream

/-- Nothing is written. -/
theorem Writes.refl (s : ServicedStream μ) : Writes keys s s :=
  ExchangeWebsocketStream.Writes.refl keys _

/-- One write after the other. -/
theorem Writes.trans (s s' s'' : ServicedStream μ) (h : Writes keys s s')
    (h' : Writes keys s' s'') : Writes keys s s'' :=
  ExchangeWebsocketStream.Writes.trans h h'

/-- A message that is sent writes nothing. -/
theorem sending_send_writes (network : Network) (message : Except Fault μ) (s : ServicedStream μ) :
    Writes keys s (s.sending (·.send network message)).2 := by
  have hsame : (s.sending (·.send network message)).2.toExchangeWebsocketStream =
      s.toExchangeWebsocketStream := SendingStream.send_stream network message s.toSendingStream
  unfold Writes
  rw [hsame]
  exact .refl keys _

/-- The candles that a trade updates are those of the intervals that have a builder. -/
theorem service_updateAll_writes (network : MarketNetwork) (pairName : String) (time : ℤ)
    (price volume : ℚ) (s : ServicedStream μ) :
    Writes (s.candleKeys pairName) s (s.service (OhlcvSubscriptionService.updateAll network.order
      updateOhlcv pairName time price volume)).2 := by
  refine OhlcvSubscriptionService.updateAll_rel
    (R := ExchangeWebsocketStream.Writes (s.candleKeys pairName))
    (ExchangeWebsocketStream.Writes.refl _) (fun _ _ _ => ExchangeWebsocketStream.Writes.trans)
    (s.ohlcvSubscriptionService, s.toExchangeWebsocketStream) fun interval hinterval ohlcv owner => ?_
  refine (ExchangeWebsocketStream.updateOhlcv_writes pairName interval ohlcv owner).mono ?_
  have hheld : interval ∈ s.ohlcvSubscriptionService.builders pairName := hinterval
  have hlisted : interval ∈ ([.m1, .m5, .m15, .h1, .d1, .w1, .unknown] : List OhlcvInterval) := by
    cases interval <;> decide
  intro key hkey
  rw [List.mem_singleton.mp hkey]
  exact List.mem_map.mpr ⟨interval, List.mem_filter.mpr ⟨hlisted, by simpa using hheld⟩, rfl⟩

/-- A trade writes the trade of its pair and the candles made out of it. -/
theorem processTrade_writes (network : MarketNetwork) (pairName : String) (trade : TradeUpdate)
    (s : ServicedStream μ) :
    Writes (.trade pairName :: s.candleKeys pairName) s
      (s.processTrade network pairName trade).2 := by
  have htrade : Writes (.trade pairName :: s.candleKeys pairName) s
      (s.sending (·.common (·.updateTrade pairName trade))).2 :=
    (ExchangeWebsocketStream.updateTrade_writes pairName trade s.toExchangeWebsocketStream).mono
      (by simp)
  refine andThen_rel Writes.trans htrade fun _ => ?_
  split
  · exact (service_updateAll_writes network pairName trade.timeStamp trade.price trade.volume
      (s.sending (·.common (·.updateTrade pairName trade))).2).mono
        fun key hkey => List.mem_cons_of_mem _ hkey
  · exact Writes.refl _

/-- The candles that a subscription loads are those of its pairs. -/
theorem service_addSubscription_writes {subscription : WebsocketSubscription}
    (hchannel : subscription.channel = .ohlcv) (network : MarketNetwork) (s : ServicedStream μ) :
    Writes (loadedKeys s.pairSeparator subscription) s
      (s.service (OhlcvSubscriptionService.addSubscription s.pairSeparator network.getOhlcv
        updateOhlcv subscription)).2 := by
  refine OhlcvSubscriptionService.addSubscription_rel
    (R := ExchangeWebsocketStream.Writes (loadedKeys s.pairSeparator subscription))
    (ExchangeWebsocketStream.Writes.refl _) (fun _ _ _ => ExchangeWebsocketStream.Writes.trans)
    (s.ohlcvSubscriptionService, s.toExchangeWebsocketStream)
    fun pair hpair interval hinterval ohlcv owner => ?_
  refine (ExchangeWebsocketStream.updateOhlcv_writes _ interval ohlcv owner).mono ?_
  intro key hkey
  rw [List.mem_singleton.mp hkey, loadedKeys, if_pos hchannel, hinterval]
  exact List.mem_map.mpr ⟨pair, hpair, rfl⟩

/-- A subscription writes the candles that it loads. -/
theorem sendSubscribe_writes (createMessage : WebsocketSubscription → Except Fault μ)
    (subscription : WebsocketSubscription) (network : MarketNetwork) (s : ServicedStream μ) :
    Writes (loadedKeys s.pairSeparator subscription) s
      (s.sendSubscribe createMessage subscription network).2 := by
  unfold sendSubscribe
  split
  · next hchannel =>
    have hsent : Writes (loadedKeys s.pairSeparator subscription) s (s.sending (·.send
        network.toNetwork (createMessage (.createTradeSub subscription.pairItem)))).2 :=
      sending_send_writes network.toNetwork _ s
    refine andThen_rel Writes.trans hsent fun _ => ?_
    have hload := service_addSubscription_writes hchannel network (s.sending (·.send network.toNetwork
      (createMessage (.createTradeSub subscription.pairItem)))).2
    rw [hsent.pairSeparator] at hload ⊢
    exact hload
  · exact sending_send_writes _ _ _

/-- A subscription writes the candles that it loads. -/
theorem subscribe_writes (createMessage : WebsocketSubscription → Except Fault μ)
    (subscription : WebsocketSubscription) (network : MarketNetwork) (s : ServicedStream μ) :
    Writes (loadedKeys s.pairSeparator subscription) s
      (s.subscribe createMessage subscription network).2 := by
  have hregistered : Writes (loadedKeys s.pairSeparator subscription) s
      (s.register subscription.pairItem) := ExchangeWebsocketStream.registerPairs_writes _ _
  exact hregistered.trans _ _ _
    (sendSubscribe_writes createMessage subscription network (s.register subscription.pairItem))

/-- Unsubscribing writes nothing. -/
theorem sendUnsubscribe_stream (createMessage : WebsocketSubscription → Except Fault μ)
    (subscription : WebsocketSubscription) (network : MarketNetwork) (s : ServicedStream μ) :
    (s.sendUnsubscribe createMessage subscription network).2.toExchangeWebsocketStream =
      s.toExchangeWebsocketStream := by
  unfold sendUnsubscribe
  split
  · rfl
  · exact SendingStream.send_stream _ _ _

end ServicedStream

end MarketBlocks
