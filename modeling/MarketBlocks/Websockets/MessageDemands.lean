import MarketBlocks.Common.JsonDemands
import MarketBlocks.Exchanges.Decoding
import MarketBlocks.Websockets.MessageDecoding

/-!
# What messages have to be like

A stream never goes wrong by itself when a message comes in: it writes its caches and hands the
update on, which throws when there are handlers for the channel but no pair under the name. So what
it demands of a document is that nothing is read that is not there, of the entries behind an update
only if this one does not throw.
-/

namespace MarketBlocks

open Library Json

/-! ## Updates -/

namespace ExchangeWebsocketStream

/-- The outcome of handing an update to the handlers. -/
def fired (channel : WebsocketChannel) (pairName : String) (s : ExchangeWebsocketStream) :
    Except Fault Unit :=
  if channel ∈ s.handled ∧ pairName ∉ s.pairs then .error .outOfRange else .ok ()

/-- What the outcome depends on. -/
def HandlesAlike (s s' : ExchangeWebsocketStream) : Prop :=
  s'.handled = s.handled ∧ s'.pairs = s.pairs

/-- Streams that handle alike fire alike. -/
theorem HandlesAlike.fired {s s' : ExchangeWebsocketStream} (h : s.HandlesAlike s')
    (channel : WebsocketChannel) (pairName : String) :
    s'.fired channel pairName = s.fired channel pairName := by
  rw [ExchangeWebsocketStream.fired, ExchangeWebsocketStream.fired, h.1, h.2]

/-- Firing throws for an unknown name, which is defined. -/
theorem fired_ne_undefined (channel : WebsocketChannel) (pairName : String)
    (s : ExchangeWebsocketStream) : s.fired channel pairName ≠ .error .undefined := by
  rw [fired]
  split <;> exact fun h => by cases h

variable (channel : WebsocketChannel) (pairName : String) (message : TradablePair → UpdateMessage)
variable (s : ExchangeWebsocketStream)

/-- What firing answers is told by the name and the channel. -/
theorem fire_fst : (s.fire channel pairName message).1 = s.fired channel pairName := by
  rw [fire, fired]
  by_cases hhandled : channel ∈ s.handled
  · cases hpair : s.pairs.lookup pairName with
    | none =>
      rw [if_pos hhandled, if_pos ⟨hhandled, Finmap.lookup_eq_none.mp hpair⟩]
    | some pair =>
      rw [if_pos hhandled, if_neg fun h => h.2 (Finmap.mem_of_lookup_eq_some hpair)]
  · rw [if_neg hhandled, if_neg fun h => hhandled h.1]

/-- Firing leaves a stream that handles alike. -/
theorem fire_handlesAlike : s.HandlesAlike (s.fire channel pairName message).2 := by
  refine ⟨?_, s.fire_pairs channel pairName message⟩
  unfold fire
  split
  · split <;> rfl
  · rfl

/-- The outcome of an update, and that it does not change those of the next ones. -/
theorem updateTrade_outcome (trade : TradeUpdate) :
    (s.updateTrade pairName trade).1 = s.fired .trade pairName ∧
      s.HandlesAlike (s.updateTrade pairName trade).2 :=
  ⟨fire_fst _ _ _ _, fire_handlesAlike _ _ _ _⟩

/-- An update of a book answers what firing does, and handling stays alike. -/
theorem updateOrderBook_outcome (timeStamp : ℤ) (entry : OrderBookEntry) :
    (s.updateOrderBook pairName timeStamp entry).1 = s.fired .orderBook pairName ∧
      s.HandlesAlike (s.updateOrderBook pairName timeStamp entry).2 := by
  rw [updateOrderBook_eq]
  exact ⟨fire_fst _ _ _ _, fire_handlesAlike _ _ _ _⟩

/-- Updating a candle is defined. -/
theorem updateOhlcv_ne_undefined (interval : OhlcvInterval) (ohlcvData : OhlcvData) :
    (s.updateOhlcv pairName interval ohlcvData).1 ≠ .error .undefined := by
  rw [updateOhlcv, fire_fst]
  exact fired_ne_undefined _ _ _

/-- Setting a book is defined. -/
theorem initialiseOrderBook_ne_undefined (cache : OrderBookCache) :
    (s.initialiseOrderBook pairName cache).1 ≠ .error .undefined := by
  rw [initialiseOrderBook, fire_fst]
  exact fired_ne_undefined _ _ _

/-- Updating a trade is defined. -/
theorem updateTrade_ne_undefined (trade : TradeUpdate) :
    (s.updateTrade pairName trade).1 ≠ .error .undefined := by
  rw [(s.updateTrade_outcome pairName trade).1]
  exact fired_ne_undefined _ _ _

/-- There are no handlers for a channel, or there is a pair under a name. -/
def fires {σ : Type} : Demand σ where
  Safe := fun _ => True
  Met := fun _ => channel ∉ s.handled ∨ pairName ∈ s.pairs

/-- Firing demands a known name where there are handlers. -/
theorem makes_fires {σ : Type} :
    Makes .undefined (fun _ : σ => s.fired channel pairName) (s.fires channel pairName) where
  safe := fun _ => iff_of_true (s.fired_ne_undefined channel pairName) trivial
  met := fun _ => by
    change _ ↔ channel ∉ s.handled ∨ pairName ∈ s.pairs
    rw [fired]
    split
    · next h => exact iff_of_false (fun ⟨_, h⟩ => by cases h) (fun h' => h'.elim (· h.1) h.2)
    · next h =>
      refine iff_of_true ⟨(), rfl⟩ ?_
      by_contra hnot
      rw [not_or, not_not] at hnot
      exact h hnot

end ExchangeWebsocketStream

/-- A loop that reads entries and hands on an update with each of them. -/
theorem forEach_fired {α σ : Type} (stream : σ → ExchangeWebsocketStream)
    {channel : WebsocketChannel} {pairName : String} {body : α → σ → Except Fault Unit × σ}
    (hbody : ∀ entry s, (body entry s).1 = (stream s).fired channel pairName ∧
      (stream s).HandlesAlike (stream (body entry s).2))
    (entries : List (Except Fault α)) (s : σ) :
    (forEach body entries s).1 =
      (entries.mapM fun entry => entry >>= fun _ => (stream s).fired channel pairName) >>= fun _ =>
        .ok () := by
  let P (s' : σ) : Prop := (stream s).HandlesAlike (stream s')
  apply forEach_fst (P := P)
  · intro entry s' hs'
    obtain ⟨houtcome, hafter⟩ := hbody entry s'
    exact ⟨houtcome.trans (hs'.fired channel pairName), hafter.1.trans hs'.1, hafter.2.trans hs'.2⟩
  · exact ⟨rfl, rfl⟩

/-- What the entries of such a loop demand, one after another while the updates go through. -/
theorem makes_fired_loop {σ τ α : Type} {parts : σ → List τ} {read : τ → Except Fault α}
    {d : Demand τ} (h : Makes .undefined read d) (channel : WebsocketChannel) (pairName : String)
    (s : ExchangeWebsocketStream) :
    Makes .undefined (fun source => (((parts source).map read).mapM fun entry =>
        entry >>= fun _ => s.fired channel pairName) >>= fun _ => (.ok () : Except Fault Unit))
      (.each parts (d.next (s.fires channel pairName))) := by
  simp only [List.mapM_map]
  exact .last (.each (.next h fun _ => s.makes_fires channel pairName)) fun _ _ => ⟨_, rfl⟩

/-- The end of `process_trade_message` of a stream with a service never goes wrong. -/
theorem ServicedStream.processTrade_ne_undefined {μ : Type} (network : MarketNetwork)
    (pairName : String) (trade : TradeUpdate) (s : ServicedStream μ) :
    (s.processTrade network pairName trade).1 ≠ .error .undefined := by
  have hbuilder (interval : OhlcvInterval) (owner : OhlcvSubscriptionService × ExchangeWebsocketStream) :
      (OhlcvSubscriptionService.updateBuilder ServicedStream.updateOhlcv pairName trade.timeStamp
        trade.price trade.volume interval owner).1 ≠ .error .undefined := by
    rw [OhlcvSubscriptionService.updateBuilder]
    split
    · exact fun h => by cases h
    · exact owner.2.updateOhlcv_ne_undefined pairName interval _
  have hservice (s : ServicedStream μ) : (s.service (OhlcvSubscriptionService.updateAll network.order
      ServicedStream.updateOhlcv pairName trade.timeStamp trade.price trade.volume)).1 ≠
        .error .undefined := by
    change (OhlcvSubscriptionService.updateAll _ _ _ _ _ _ _).1 ≠ _
    rw [OhlcvSubscriptionService.updateAll]
    split
    · exact forEach_fst_ne hbuilder _ _
    · exact fun h => by cases h
  rw [ServicedStream.processTrade, andThen_fst]
  have htrade : (s.sending (·.common (·.updateTrade pairName trade))).1 ≠ .error .undefined :=
    s.toExchangeWebsocketStream.updateTrade_ne_undefined pairName trade
  cases hresult : (s.sending (·.common (·.updateTrade pairName trade))).1 with
  | error fault =>
    rw [hresult] at htrade
    exact htrade
  | ok value =>
    change (if _ then _ else _ : Except Fault Unit × ServicedStream μ).1 ≠ _
    split
    · exact hservice _
    · exact fun h => by cases h

end MarketBlocks
