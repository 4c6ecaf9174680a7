import MarketBlocks.Websockets.StreamImplementations

/-!
# After an unsubscription

No implementation of `unsubscribe` reaches `set_unsubscribed`. What has come in for a feed stays in
its cache, and since the status is read off the cache, a feed looks unsubscribed after an
unsubscription exactly when nothing had come in for it before.
-/

namespace MarketBlocks

open Library

/-- The feed of one pair of a subscription. -/
def BasicWebsocketSubscription.feedOf (subscription : WebsocketSubscription) (pair : TradablePair) :
    UniqueWebsocketSubscription :=
  { channel := subscription.channel, pairItem := pair, parameter := subscription.parameter }

namespace StreamImplementation

variable (implementation : StreamImplementation)

/-- An unsubscription that returns, and after it events that bring no data for a feed of it: the
feed looks unsubscribed when nothing was cached for it before, and only then. -/
theorem looksUnsubscribed_after_iff {subscription : WebsocketSubscription} {network : MarketNetwork}
    {s : implementation.State}
    {after : List (StreamEvent implementation.Message × MarketNetwork)} {pair : TradablePair}
    (hreturns : (implementation.unsubscribe subscription network s).1 = .ok ())
    (hquiet : EveryStep implementation.step
      (fun s' input => (subscription.feedOf pair).cacheKey (implementation.stream s).pairSeparator ∉
        implementation.eventKeys s' input)
      (implementation.unsubscribe subscription network s).2 after) :
    (implementation.stream (after.foldl implementation.step
        (implementation.unsubscribe subscription network s).2)).LooksUnsubscribed
          (subscription.feedOf pair) ↔
      (implementation.stream s).cached
        ((subscription.feedOf pair).cacheKey (implementation.stream s).pairSeparator) = none := by
  have hcomplete : (subscription.feedOf pair).Complete :=
    implementation.complete_of_unsubscribe subscription network s hreturns
  have hsame := implementation.unsubscribe_stream subscription network s
  have hkept := implementation.run_cached hquiet
  have hseparator :=
    implementation.run_pairSeparator (implementation.unsubscribe subscription network s).2 after
  rw [hsame] at hkept hseparator
  rw [ExchangeWebsocketStream.looksUnsubscribed_iff hcomplete, hseparator, hkept]

end StreamImplementation

namespace StreamExchange

/-- On every exchange, in every run with an unsubscription that returns and then no data for a feed
of it, the feed looks unsubscribed exactly when nothing was cached for it at the unsubscription. -/
theorem run_looksUnsubscribed_iff (exchange : StreamExchange) (start : exchange.implementation.State)
    (before after : List (StreamEvent exchange.implementation.Message × MarketNetwork))
    (subscription : WebsocketSubscription) (network : MarketNetwork) (pair : TradablePair)
    (hreturns : (exchange.implementation.unsubscribe subscription network
      (before.foldl exchange.implementation.step start)).1 = .ok ())
    (hquiet : EveryStep exchange.implementation.step
      (fun s input => (subscription.feedOf pair).cacheKey
        (exchange.implementation.stream start).pairSeparator ∉
          exchange.implementation.eventKeys s input)
      ((before ++ [(StreamEvent.unsubscribe subscription, network)]).foldl
        exchange.implementation.step start) after) :
    (exchange.implementation.stream
        ((before ++ (StreamEvent.unsubscribe subscription, network) :: after).foldl
          exchange.implementation.step start)).LooksUnsubscribed (subscription.feedOf pair) ↔
      (exchange.implementation.stream (before.foldl exchange.implementation.step start)).cached
        ((subscription.feedOf pair).cacheKey
          (exchange.implementation.stream start).pairSeparator) = none := by
  have hseparator := exchange.implementation.run_pairSeparator start before
  rw [← hseparator] at hquiet ⊢
  rw [List.foldl_append, List.foldl_cons, List.foldl_nil] at hquiet
  rw [List.foldl_append, List.foldl_cons]
  exact exchange.implementation.looksUnsubscribed_after_iff hreturns hquiet

/-- A trade comes in for another pair after an unsubscription at Kraken, and the feed that was
subscribed in vain looks unsubscribed. -/
theorem run_looksUnsubscribed_iff_kraken :
    let pair : TradablePair := ⟨"BTC", "GBP"⟩
    let subscription : WebsocketSubscription := .createTradeSub [pair]
    let start : KrakenWebsocketStream :=
      (KrakenWebsocketStream.create.common (·.reset MarketNetwork.idle.toNetwork)).2
    let events : List (StreamEvent KrakenMessage × MarketNetwork) :=
      [(.subscribe subscription, .idle), (.unsubscribe subscription, .idle),
        (.message (.trade "ETH/GBP" (.ok [.ok ⟨60, 20, 1⟩])), .idle)]
    (events.foldl KrakenWebsocketStream.implementation.step
      start).toExchangeWebsocketStream.LooksUnsubscribed (subscription.feedOf pair) := by
  intro pair subscription start events
  refine (run_looksUnsubscribed_iff .kraken start [(.subscribe subscription, .idle)]
    [(.message (.trade "ETH/GBP" (.ok [.ok ⟨60, 20, 1⟩])), .idle)] subscription .idle pair ?_ ?_).mpr
      ?_
  · rfl
  · exact ⟨by decide, trivial⟩
  · rfl

/-- A trade comes in between a subscription and an unsubscription at Kraken. The unsubscription
returns, and the feed does not look unsubscribed: its status is `SUBSCRIBED`, its last trade is the
one that came in, and an account does not subscribe again. -/
theorem run_stays_subscribed :
    let pair : TradablePair := ⟨"BTC", "GBP"⟩
    let subscription : WebsocketSubscription := .createTradeSub [pair]
    let start : KrakenWebsocketStream :=
      (KrakenWebsocketStream.create.common (·.reset MarketNetwork.idle.toNetwork)).2
    let events : List (StreamEvent KrakenMessage × MarketNetwork) :=
      [(.subscribe subscription, .idle), (.message (.trade "BTC/GBP" (.ok [.ok ⟨60, 20, 1⟩])), .idle)]
    let s := events.foldl KrakenWebsocketStream.implementation.step start
    let s' := (KrakenWebsocketStream.unsubscribe subscription .idle s).2.toExchangeWebsocketStream
    (KrakenWebsocketStream.unsubscribe subscription .idle s).1 = .ok () ∧
      ¬s'.LooksUnsubscribed (subscription.feedOf pair) ∧
      s'.getSubscriptionStatus (.createTradeSub pair) = .ok .subscribed ∧
      s'.getLastTrade pair = ⟨60, 20, 1⟩ ∧
      PaperTradeApi.subscriptionFor (s'.feed 60) (createMarketOrder pair .buy 1) = none := by
  intro pair subscription start events s s'
  have hstatus : s'.getSubscriptionStatus (.createTradeSub pair) = .ok .subscribed := by
    decide +kernel
  refine ⟨rfl, fun h => ?_, hstatus, by decide +kernel, by decide +kernel⟩
  have hnew : s'.getSubscriptionStatus (.createTradeSub pair) = .ok .unsubscribed := h.status
  rw [hstatus] at hnew
  cases hnew

end StreamExchange

end MarketBlocks
