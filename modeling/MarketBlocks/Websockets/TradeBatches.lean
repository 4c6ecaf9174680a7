import MarketBlocks.Trading.BatchCandle
import MarketBlocks.Websockets.DigifinexWebsocket
import MarketBlocks.Websockets.OhlcvFamily

/-!
# Batches of trades

A `trades.update` of Digifinex carries any number of trades. The stream reads the last of them, so
that its candles are those of all trades as long as no message carries more than one.
-/

namespace MarketBlocks

open Library

/-- Candles of different intervals of one pair have different names. -/
theorem createOhlcvSubId_injective (pairName : String) :
    Function.Injective (createOhlcvSubId pairName) := by
  intro interval other h
  have htext : interval.toString = other.toString := (String.append_right_inj pairName).mp h
  revert htext
  cases interval <;> cases other <;> decide

/-- A candle of a registered pair is stored, whatever the handlers. -/
theorem ExchangeWebsocketStream.updateOhlcv_of_mem {s : ExchangeWebsocketStream} {pairName : String}
    (hpair : pairName ∈ s.pairs) (interval : OhlcvInterval) (ohlcv : OhlcvData) :
    ∃ s', s.updateOhlcv pairName interval ohlcv = (.ok (), s') ∧ s'.pairs = s.pairs ∧
      s'.ohlcv = s.ohlcv.insert (createOhlcvSubId pairName interval) ohlcv := by
  unfold updateOhlcv fire
  obtain ⟨pair, hlookup⟩ := Finmap.mem_iff.mp hpair
  split
  · simp only [hlookup]
    exact ⟨_, rfl, rfl, rfl⟩
  · exact ⟨_, rfl, rfl, rfl⟩

/-- A trade of a registered pair leaves the candles alone. -/
theorem ExchangeWebsocketStream.updateTrade_of_mem {s : ExchangeWebsocketStream} {pairName : String}
    (hpair : pairName ∈ s.pairs) (trade : TradeUpdate) :
    ∃ s', s.updateTrade pairName trade = (.ok (), s') ∧ s'.pairs = s.pairs ∧ s'.ohlcv = s.ohlcv := by
  unfold updateTrade fire
  obtain ⟨pair, hlookup⟩ := Finmap.mem_iff.mp hpair
  split
  · simp only [hlookup]
    exact ⟨_, rfl, rfl, rfl⟩
  · exact ⟨_, rfl, rfl, rfl⟩

namespace OhlcvSubscriptionService

/-- A service and its stream, when the pair is registered and the builder is held. -/
structure Serves (pairName : String) (interval : OhlcvInterval) (builder : OhlcvFromTrades)
    (s : OhlcvSubscriptionService × ExchangeWebsocketStream) : Prop where
  registered : pairName ∈ s.2.pairs
  held : (s.1.builders pairName).lookup interval = some builder

/-- The candle of a pair and an interval that the stream has. -/
def candle (pairName : String) (interval : OhlcvInterval)
    (s : OhlcvSubscriptionService × ExchangeWebsocketStream) : Option OhlcvData :=
  s.2.ohlcv.lookup (createOhlcvSubId pairName interval)

variable {pairName : String} {interval other : OhlcvInterval} {builder : OhlcvFromTrades}
  {s : OhlcvSubscriptionService × ExchangeWebsocketStream}

/-- A builder of a registered pair takes a trade. -/
private theorem updateBuilder_of_held (hpair : pairName ∈ s.2.pairs)
    (hheld : (s.1.builders pairName).lookup interval = some builder) (time : ℤ) (price volume : ℚ) :
    ∃ stream, updateBuilder ServicedStream.updateOhlcv pairName time price volume interval s =
        (.ok (), (s.1.setBuilders pairName ((s.1.builders pairName).insert interval
          (ServiceRun.traded time price volume builder).2), stream)) ∧
      stream.pairs = s.2.pairs ∧
      stream.ohlcv = s.2.ohlcv.insert (createOhlcvSubId pairName interval)
        (ServiceRun.traded time price volume builder).1 := by
  obtain ⟨stream, hstream, hstored⟩ := ExchangeWebsocketStream.updateOhlcv_of_mem hpair interval
    (ServiceRun.traded time price volume builder).1
  refine ⟨stream, ?_, hstored⟩
  rw [updateBuilder, hheld]
  change ((ServicedStream.updateOhlcv pairName interval (ServiceRun.traded time price volume builder).1
    s.2).1, (_, (ServicedStream.updateOhlcv pairName interval
      (ServiceRun.traded time price volume builder).1 s.2).2)) = _
  rw [ServicedStream.updateOhlcv, hstream]
  rfl

/-- The builder of the interval takes the trade, and its candle goes to the stream. -/
theorem Serves.updateBuilder_self (h : Serves pairName interval builder s) (time : ℤ)
    (price volume : ℚ) :
    ∃ s', updateBuilder ServicedStream.updateOhlcv pairName time price volume interval s =
        (.ok (), s') ∧
      Serves pairName interval (ServiceRun.traded time price volume builder).2 s' ∧
      candle pairName interval s' = some (ServiceRun.traded time price volume builder).1 := by
  obtain ⟨stream, hcall, hpairs, hohlcv⟩ := updateBuilder_of_held h.registered h.held time price volume
  refine ⟨_, hcall, ⟨?_, ?_⟩, ?_⟩
  · exact hpairs ▸ h.registered
  · rw [builders_setBuilders, if_pos rfl, UnorderedMap.lookup_insert_eq, if_pos rfl]
  · rw [candle, hohlcv, UnorderedMap.lookup_insert_eq, if_pos rfl]

/-- The builder of another interval leaves this one alone. -/
theorem Serves.updateBuilder_other (h : Serves pairName interval builder s) (hne : other ≠ interval)
    (time : ℤ) (price volume : ℚ) :
    ∃ s', updateBuilder ServicedStream.updateOhlcv pairName time price volume other s = (.ok (), s') ∧
      Serves pairName interval builder s' ∧ candle pairName interval s' = candle pairName interval s := by
  cases hother : (s.1.builders pairName).lookup other with
  | none =>
    refine ⟨s, ?_, h, rfl⟩
    rw [updateBuilder, hother]
  | some held =>
    obtain ⟨stream, hcall, hpairs, hohlcv⟩ :=
      updateBuilder_of_held h.registered hother time price volume
    refine ⟨_, hcall, ⟨?_, ?_⟩, ?_⟩
    · exact hpairs ▸ h.registered
    · rw [builders_setBuilders, if_pos rfl, UnorderedMap.lookup_insert_eq, if_neg hne.symm]
      exact h.held
    · rw [candle, hohlcv, UnorderedMap.lookup_insert_eq,
        if_neg fun heq => hne (createOhlcvSubId_injective pairName heq).symm]
      rfl

/-- A walk that does not come to the interval leaves it alone. -/
theorem Serves.walk_other (time : ℤ) (price volume : ℚ) {intervals : List OhlcvInterval}
    (h : Serves pairName interval builder s) (hmem : interval ∉ intervals) :
    ∃ s', forEach (updateBuilder ServicedStream.updateOhlcv pairName time price volume)
        (intervals.map .ok) s = (.ok (), s') ∧
      Serves pairName interval builder s' ∧ candle pairName interval s' = candle pairName interval s := by
  induction intervals generalizing s with
  | nil => exact ⟨s, rfl, h, rfl⟩
  | cons other rest ih =>
    rw [List.mem_cons, not_or] at hmem
    obtain ⟨s', hs', h', hcandle⟩ := h.updateBuilder_other (Ne.symm hmem.1) time price volume
    obtain ⟨s'', hs'', h'', hcandle'⟩ := ih h' hmem.2
    refine ⟨s'', ?_, h'', hcandle'.trans hcandle⟩
    simp only [List.map_cons, forEach, withRead, hs', andThen]
    exact hs''

/-- A walk that comes to the interval once gives its builder the trade. -/
theorem Serves.walk (time : ℤ) (price volume : ℚ) {intervals : List OhlcvInterval}
    (h : Serves pairName interval builder s) (hmem : interval ∈ intervals) (hnodup : intervals.Nodup) :
    ∃ s', forEach (updateBuilder ServicedStream.updateOhlcv pairName time price volume)
        (intervals.map .ok) s = (.ok (), s') ∧
      Serves pairName interval (ServiceRun.traded time price volume builder).2 s' ∧
      candle pairName interval s' = some (ServiceRun.traded time price volume builder).1 := by
  induction intervals generalizing s with
  | nil => cases hmem
  | cons other rest ih =>
    obtain ⟨hnew, hrest⟩ := List.nodup_cons.mp hnodup
    simp only [List.map_cons, forEach, withRead]
    by_cases heq : other = interval
    · subst heq
      obtain ⟨s', hs', h', hcandle⟩ := h.updateBuilder_self time price volume
      obtain ⟨s'', hs'', h'', hcandle'⟩ := h'.walk_other time price volume hnew
      refine ⟨s'', ?_, h'', hcandle'.trans hcandle⟩
      simp only [hs', andThen]
      exact hs''
    · obtain ⟨s', hs', h', -⟩ := h.updateBuilder_other heq time price volume
      have hlater : interval ∈ rest := (List.mem_cons.mp hmem).resolve_left (Ne.symm heq)
      obtain ⟨s'', hs'', h''⟩ := ih h' hlater hrest
      refine ⟨s'', ?_, h''⟩
      simp only [hs', andThen]
      exact hs''

end OhlcvSubscriptionService

namespace OhlcvFromTrades

variable {builder : OhlcvFromTrades} {time : ℤ}

/-- A query at the time of the last trade reports the candle that the trade has come into. -/
theorem getOhlcv_addTrade (hinterval : 0 < builder.interval) (htime : builder.startTime ≤ time)
    (price volume : ℚ) :
    (builder.addTrade time price volume).getOhlcv time =
      ((builder.addTrade time price volume).ohlcv, builder.addTrade time price volume) := by
  have hcurrent : (builder.addTrade time price volume).atTime time = builder.addTrade time price volume := by
    have hafter := lt_gridTime_add builder.startTime time hinterval
    rw [addTrade_eq htime]
    refine if_neg ?_
    simp only [startTime_atTime htime, interval_atTime]
    omega
  rw [getOhlcv, hcurrent]

/-- A further trade comes last. -/
theorem addTrades_concat (trades : List TradeUpdate) (trade : TradeUpdate) :
    builder.addTrades (trades ++ [trade]) =
      (builder.addTrades trades).addTrade trade.timeStamp trade.price trade.volume :=
  List.foldl_concat ..

/-- A builder that has been fed trades in order does not start after a later one. -/
theorem startTime_addTrades_le {seed : OhlcvData} {interval : ℤ} (hinterval : 0 < interval)
    {trades : List TradeUpdate} {trade : TradeUpdate}
    (hchron : Chronological seed.timeStamp (trades ++ [trade])) :
    ((ofCandle seed interval).addTrades trades).interval = interval ∧
      ((ofCandle seed interval).addTrades trades).startTime ≤ trade.timeStamp := by
  obtain ⟨hbefore, hle⟩ := hchron.of_concat
  have hbuilt := built_addTrades hinterval hbefore
  exact ⟨hbuilt.interval_eq, hbuilt.startTime_eq.trans_le ((gridTime_le _ _ hinterval).trans hle)⟩

end OhlcvFromTrades

namespace DigifinexWebsocketStream

open OhlcvSubscriptionService

/-- The service of the stream with its owner. -/
def served (s : DigifinexWebsocketStream) : OhlcvSubscriptionService × ExchangeWebsocketStream :=
  (s.ohlcvSubscriptionService, s.toExchangeWebsocketStream)

/-- A `trades.update` of a pair arrives. -/
def receive (pairName : String) (receipt : MarketNetwork × List TradeUpdate)
    (s : DigifinexWebsocketStream) : Except Fault Unit × DigifinexWebsocketStream :=
  onMessage (.tradesUpdate (.ok ⟨pairName, receipt.2.map .ok⟩)) receipt.1 s

/-- Messages one after the other. -/
def receiveAll (pairName : String) (receipts : List (MarketNetwork × List TradeUpdate))
    (s : DigifinexWebsocketStream) : DigifinexWebsocketStream :=
  receipts.foldl (fun s receipt => (receive pairName receipt s).2) s

/-- After each message the volume and the extremes of the candle are those of all trades so far, and
a message without trades does nothing. -/
def AccountsForTrades (pairName : String) (interval : OhlcvInterval) (seed : OhlcvData)
    (receipts : List (MarketNetwork × List TradeUpdate)) (s : DigifinexWebsocketStream) : Prop :=
  ∀ before receipt after, receipts = before ++ receipt :: after →
    (receipt.2 = [] →
      receive pairName receipt (receiveAll pairName before s) = (.ok (), receiveAll pairName before s)) ∧
    ∀ last, receipt.2.getLast? = some last → ∃ s' ohlcv,
      receive pairName receipt (receiveAll pairName before s) = (.ok (), s') ∧
      candle pairName interval (served s') = some ohlcv ∧
      let full := (((OhlcvFromTrades.ofCandle seed interval.toSeconds).addTrades
        (before.flatMap (·.2) ++ receipt.2)).getOhlcv last.timeStamp).1
      ohlcv.volume = full.volume ∧ ohlcv.high = full.high ∧ ohlcv.low = full.low

variable {pairName : String} {interval : OhlcvInterval} {builder : OhlcvFromTrades} {seed : OhlcvData}
  {network : MarketNetwork} {receipts : List (MarketNetwork × List TradeUpdate)}
  {s : DigifinexWebsocketStream}

/-- The element in front of the first one is read. -/
theorem receive_nil (network : MarketNetwork) (s : DigifinexWebsocketStream) :
    receive pairName (network, []) s = (.error .undefined, s) := rfl

/-- A message with one trade. -/
theorem receive_singleton (h : Serves pairName interval builder (served s)) (network : MarketNetwork)
    (trade : TradeUpdate) :
    ∃ s', receive pairName (network, [trade]) s = (.ok (), s') ∧
      Serves pairName interval
        (ServiceRun.traded trade.timeStamp trade.price trade.volume builder).2 (served s') ∧
      candle pairName interval (served s') =
        some (ServiceRun.traded trade.timeStamp trade.price trade.volume builder).1 := by
  have hregistered : pairName ∈ s.pairs := h.registered
  have hsubscribed : s.ohlcvSubscriptionService.isSubscribed pairName = true := isSubscribed_of_held h.held
  obtain ⟨stream, hstream, hpairs, -⟩ := ExchangeWebsocketStream.updateTrade_of_mem hregistered trade
  have hserves : Serves pairName interval builder (s.ohlcvSubscriptionService, stream) :=
    ⟨hpairs ▸ hregistered, h.held⟩
  obtain ⟨⟨service, stream'⟩, hwalk, hserves', hcandle⟩ := hserves.walk trade.timeStamp trade.price
    trade.volume (network.order.mem interval) network.order.nodup
  refine ⟨{ s with toExchangeWebsocketStream := stream', ohlcvSubscriptionService := service }, ?_,
    hserves', hcandle⟩
  change s.processTrade network pairName trade = _
  have htrade : s.sending (·.common (·.updateTrade pairName trade)) =
      (.ok (), { s with toExchangeWebsocketStream := stream }) := by
    rw [ServicedStream.sending, SendingStream.common, hstream]
  rw [ServicedStream.processTrade, htrade]
  simp only [andThen]
  rw [if_pos hsubscribed, ServicedStream.service, updateAll, if_pos hsubscribed, hwalk]

/-- Behind messages with one trade each the builder has been fed all of them. -/
theorem receiveAll_serves (hinterval : 0 < interval.toSeconds)
    (h : Serves pairName interval (.ofCandle seed interval.toSeconds) (served s))
    (hsingle : ∀ receipt ∈ receipts, receipt.2.length = 1)
    (hchron : Chronological seed.timeStamp (receipts.flatMap (·.2))) :
    Serves pairName interval ((OhlcvFromTrades.ofCandle seed interval.toSeconds).addTrades
      (receipts.flatMap (·.2))) (served (receiveAll pairName receipts s)) := by
  induction receipts using List.reverseRecOn with
  | nil => exact h
  | append_singleton before receipt ih =>
    obtain ⟨network, batch⟩ := receipt
    obtain ⟨trade, rfl⟩ := List.length_eq_one_iff.mp (hsingle (network, batch) (by simp))
    rw [List.flatMap_append, List.flatMap_singleton] at hchron ⊢
    have hserves := ih (fun receipt hmem => hsingle receipt (List.mem_append_left _ hmem))
      hchron.of_concat.1
    obtain ⟨s', hs', hserves', -⟩ := receive_singleton hserves network trade
    obtain ⟨hbuilder, hstart⟩ := OhlcvFromTrades.startTime_addTrades_le hinterval hchron
    rw [ServiceRun.traded, OhlcvFromTrades.getOhlcv_addTrade (hbuilder.symm ▸ hinterval) hstart] at hserves'
    rw [receiveAll, List.foldl_concat, OhlcvFromTrades.addTrades_concat, ← receiveAll, hs']
    exact hserves'

/-- The candles account for all trades of messages that carry one trade each, and a message
without trades is never accounted for. -/
theorem accountsForTrades (hinterval : 0 < interval.toSeconds)
    (h : Serves pairName interval (.ofCandle seed interval.toSeconds) (served s))
    (hchron : Chronological seed.timeStamp (receipts.flatMap (·.2))) :
    ((∀ receipt ∈ receipts, receipt.2.length = 1) →
      AccountsForTrades pairName interval seed receipts s) ∧
    (AccountsForTrades pairName interval seed receipts s →
      ∀ receipt ∈ receipts, receipt.2 ≠ []) := by
  constructor
  · intro hsingle before receipt after hsplit
    obtain ⟨network, batch⟩ := receipt
    obtain ⟨trade, rfl⟩ := List.length_eq_one_iff.mp (hsingle (network, batch) (by simp [hsplit]))
    refine ⟨fun hempty => absurd hempty (List.cons_ne_nil trade []), fun last hlast => ?_⟩
    cases hlast
    rw [hsplit, List.flatMap_append, List.flatMap_cons] at hchron
    have hpart : Chronological seed.timeStamp (before.flatMap (·.2) ++ [trade]) := by
      rw [← List.append_assoc] at hchron
      exact ⟨fun t hmem => hchron.le_time t (List.mem_append_left _ hmem),
        (List.pairwise_append.mp hchron.sorted).1⟩
    have hserves := receiveAll_serves hinterval h
      (fun receipt hmem => hsingle receipt (by simp [hsplit, hmem])) hpart.of_concat.1
    obtain ⟨s', hs', -, hcandle⟩ := receive_singleton hserves network trade
    refine ⟨s', _, hs', hcandle, ?_⟩
    rw [OhlcvFromTrades.addTrades_concat]
    exact ⟨rfl, rfl, rfl⟩
  · intro haccounts receipt hmem hempty
    obtain ⟨before, after, hsplit⟩ := List.append_of_mem hmem
    obtain ⟨network, batch⟩ := receipt
    cases hempty
    have hnothing := (haccounts before (network, []) after hsplit).1 rfl
    rw [receive_nil] at hnothing
    cases hnothing

/-- A stream with a subscription to the candles of a pair. -/
def subscribed : DigifinexWebsocketStream :=
  (subscribe (.createOhlcvSub [⟨"BTC", "USDT"⟩] .m1)
    { MarketNetwork.idle with getOhlcv := fun _ _ _ => .ok [⟨60, 1, 1, 1, 1, 1⟩] }
    { create with connection := true }).2

/-- Of two trades in a message the first one is lost. -/
theorem batch_not_accounted :
    ¬AccountsForTrades "BTC_USDT" .m1 ⟨60, 1, 1, 1, 1, 1⟩
      [(.idle, [⟨61, 5, 2⟩, ⟨62, 3, 4⟩])] subscribed := by
  intro haccounts
  obtain ⟨s', ohlcv, hs', hcandle, hvolume, -⟩ :=
    (haccounts [] _ [] rfl).2 ⟨62, 3, 4⟩ rfl
  have hlast : candle "BTC_USDT" .m1 (served (receive "BTC_USDT" (.idle, [⟨61, 5, 2⟩, ⟨62, 3, 4⟩])
      subscribed).2) = some ⟨60, 1, 3, 1, 3, 5⟩ := by decide +kernel
  have hsame : (receive "BTC_USDT" (.idle, [⟨61, 5, 2⟩, ⟨62, 3, 4⟩]) subscribed).2 = s' :=
    congrArg Prod.snd hs'
  rw [hsame, hcandle, Option.some.injEq] at hlast
  rw [hlast] at hvolume
  exact absurd hvolume (by decide +kernel)

/-- Two messages of one trade each. -/
theorem accountsForTrades_two_messages :
    AccountsForTrades "BTC_USDT" .m1 ⟨60, 1, 1, 1, 1, 1⟩
      [(.idle, [⟨61, 5, 2⟩]), (.idle, [⟨130, 3, 4⟩])] subscribed :=
  (accountsForTrades (by decide) ⟨by decide +kernel, by decide +kernel⟩
    ⟨by decide, by decide⟩).1 (by decide)

end DigifinexWebsocketStream

end MarketBlocks
