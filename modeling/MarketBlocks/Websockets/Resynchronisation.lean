import MarketBlocks.Websockets.BinanceWebsocket

/-!
# Synchronising again after a reconnect

A symbol is synchronised by its id in `_orderBookIds`, and its book lies in `_orderBooks` of
the base class. A reset clears the books and leaves the ids, so after it a symbol that was
synchronised before has an id and no book, and its next difference is applied to an empty
book. This file shows that nothing else can part the two maps: a run keeps them together
exactly when it never clears the stream while a symbol is synchronised.
-/

namespace MarketBlocks

open Library

namespace BinanceWebsocketStream

/-- A symbol has an id exactly when it has a book. -/
def Synchronised (s : BinanceWebsocketStream) : Prop :=
  ∀ symbol, symbol ∈ s.orderBookIds ↔ symbol ∈ s.orderBooks

/-- A `depthUpdate` for a symbol without a book loads the book of a fresh snapshot, unless there
is no snapshot to be had, which leaves the stream as it is. -/
def Resynchronises (s : BinanceWebsocketStream) : Prop :=
  ∀ symbol message network, message.symbol = .ok symbol → symbol ∉ s.orderBooks →
    (s.processOrderBookMessage message network).2 = s ∨
      ∃ pair snapshot, s.pairs.lookup symbol = some pair ∧
        network.getOrderBook pair 100 = .ok snapshot ∧
        (s.processOrderBookMessage message network).2.orderBookIds.lookup symbol =
          some snapshot.timeStamp ∧
        (s.processOrderBookMessage message network).2.orderBooks.lookup symbol =
          some (OrderBookCache.fromSnapshot snapshot)

/-- A symbol without an id is loaded. -/
theorem processOrderBookMessage_of_notMem {symbol : String} {message : DepthUpdate}
    {network : Network} {s : BinanceWebsocketStream} (hsymbol : message.symbol = .ok symbol)
    (hid : symbol ∉ s.orderBookIds) :
    s.processOrderBookMessage message network = s.loadOrderBook symbol network := by
  unfold processOrderBookMessage
  simp only [hsymbol, Finmap.lookup_eq_none.mpr hid]

/-- While the two maps agree, whatever has no book is loaded afresh. -/
theorem Synchronised.resynchronises {s : BinanceWebsocketStream} (h : s.Synchronised) :
    s.Resynchronises := by
  intro symbol message network hsymbol hbook
  rw [processOrderBookMessage_of_notMem hsymbol fun hid => hbook ((h symbol).mp hid)]
  rcases loadOrderBook_spec symbol network s with
    hsame | ⟨pair, snapshot, hpair, hsnapshot, hids, hbooks, -⟩
  · exact .inl hsame
  · refine .inr ⟨pair, snapshot, hpair, hsnapshot, ?_, ?_⟩
    · rw [hids, Finmap.lookup_insert]
    · rw [hbooks, Finmap.lookup_insert]

/-- What one symbol sees decides whether it is synchronised. -/
theorem AgreesAt.synchronised {symbol : String} {s s' : BinanceWebsocketStream}
    (h : AgreesAt symbol s s') (hsync : symbol ∈ s.orderBookIds ↔ symbol ∈ s.orderBooks) :
    symbol ∈ s'.orderBookIds ↔ symbol ∈ s'.orderBooks := by
  simp only [Finmap.mem_iff, h.id, h.book]
  simpa only [Finmap.mem_iff] using hsync

/-- A `depthUpdate` never parts the id and the book of its symbol, however it ends. -/
theorem processOrderBookMessage_synchronised {symbol : String} {message : DepthUpdate}
    (network : Network) {s : BinanceWebsocketStream} (hsymbol : message.symbol = .ok symbol)
    (hsync : symbol ∈ s.orderBookIds ↔ symbol ∈ s.orderBooks) :
    symbol ∈ (s.processOrderBookMessage message network).2.orderBookIds ↔
      symbol ∈ (s.processOrderBookMessage message network).2.orderBooks := by
  by_cases hid : symbol ∈ s.orderBookIds
  · obtain ⟨lastUpdate, hlookup⟩ := Finmap.mem_iff.mp hid
    have hbook := hsync.mp hid
    unfold processOrderBookMessage
    simp only [hsymbol, hlookup]
    split
    · exact hsync
    · next finalUpdateId _ =>
      split
      · exact hsync
      · obtain ⟨s', hworks, hstate | hstate⟩ := applyOrderBook_spec symbol finalUpdateId message s
        · rw [hstate, hworks.orderBookIds]
          exact ⟨fun _ => hworks.kept hbook, fun _ => hid⟩
        · rw [hstate]
          exact ⟨fun _ => hworks.kept hbook, fun _ => Finmap.mem_insert.mpr (.inl rfl)⟩
  · rw [processOrderBookMessage_of_notMem hsymbol hid]
    rcases loadOrderBook_spec symbol network s with hsame | ⟨_, _, _, _, hids, hbooks, -⟩
    · rw [hsame]
      exact hsync
    · rw [hids, hbooks]
      exact ⟨fun _ => Finmap.mem_insert.mpr (.inl rfl), fun _ => Finmap.mem_insert.mpr (.inl rfl)⟩

/-- One event keeps the maps together exactly when it does not clear the stream while a symbol
is synchronised. -/
theorem step_synchronised_iff {s : BinanceWebsocketStream} (hsync : s.Synchronised)
    (input : Event × Network) :
    (s.Clears input → s.orderBookIds = ∅) ↔ (s.step input).Synchronised := by
  by_cases hclears : s.Clears input
  · obtain ⟨hbooks, hids⟩ := step_of_clears s input hclears
    constructor
    · intro hnone symbol
      rw [hbooks, hids, hnone hclears]
      exact ⟨fun h => absurd h Finmap.notMem_empty, fun h => absurd h Finmap.notMem_empty⟩
    · intro hkept _
      apply Finmap.ext_lookup
      intro symbol
      rw [Finmap.lookup_empty, Finmap.lookup_eq_none]
      intro hid
      have hbook := (hkept symbol).mp (hids.symm ▸ hid)
      rw [hbooks] at hbook
      exact Finmap.notMem_empty hbook
  · refine ⟨fun _ symbol => ?_, fun _ h => absurd h hclears⟩
    by_cases hconcerns : input.1.Concerns symbol
    · obtain ⟨event, network⟩ := input
      cases event with
      | message message =>
        cases message with
        | depthUpdate update =>
          exact processOrderBookMessage_synchronised network hconcerns (hsync symbol)
        | unreadable _ | notice _ | trade _ | kline _ | other => exact hconcerns.elim
      | subscribe _ | unsubscribe _ | addUpdateHandler _ | reset | disconnect =>
        exact hconcerns.elim
    · exact (step_agreesAt s input hconcerns hclears).synchronised (hsync symbol)

/-- A run of the stream has an id for exactly the symbols with a book, and loads every symbol
without a book afresh, in all states that it reaches, exactly when no call clears the stream
while a symbol is synchronised. -/
theorem run_resynchronises_iff (inputs : List (Event × Network)) :
    (∀ before, before <+: inputs →
        (before.foldl step create).Synchronised ∧ (before.foldl step create).Resynchronises) ↔
      EveryStep step (fun s input => s.Clears input → s.orderBookIds = ∅) create inputs := by
  have hcreate : create.Synchronised := fun symbol => Iff.rfl
  have hstep : ∀ s input, Synchronised s →
      ((s.Clears input → s.orderBookIds = ∅) ↔ (step s input).Synchronised) :=
    fun s input hsync => step_synchronised_iff hsync input
  rw [everyStep_iff_invariant hstep hcreate]
  constructor
  · intro hall before hpart
    exact (hall before hpart).1
  · intro hall before hpart
    exact ⟨hall before hpart, (hall before hpart).resynchronises⟩

/-- The book of a pair is loaded at id 10, and the connection is reset. The first `depthUpdate`
after it is applied to an empty book: what is cached at id 12 is its one level, where the
exchange reports three. -/
theorem run_applies_to_empty_book :
    let pair : TradablePair := ⟨"BTC", "GBP"⟩
    let old := Network.reporting ⟨10, [⟨100, 1, .ask⟩, ⟨101, 2, .ask⟩], []⟩
    let fresh :=
      Network.reporting ⟨12, [⟨100, 1, .ask⟩, ⟨101, 2, .ask⟩, ⟨102, 3, .ask⟩], []⟩
    let update (id : ℤ) : Event := .message (.depthUpdate
      ⟨.ok "BTCGBP", .ok id, .ok [.ok (102, 3)], .ok []⟩)
    let s := [(.reset, old), (.subscribe (.createOrderBookSub [pair]), old), (update 9, old),
      (.reset, old)].foldl step create
    ¬ (s.Synchronised ∧ s.Resynchronises) ∧
      (s.step (update 12, fresh)).getOrderBook pair 0 = .ok ⟨12, [⟨102, 3, .ask⟩], []⟩ := by
  intro pair old fresh update s
  have hid : "BTCGBP" ∈ s.orderBookIds := by decide +kernel
  have hbook : "BTCGBP" ∉ s.orderBooks := by decide +kernel
  refine ⟨fun h => hbook ((h.1 "BTCGBP").mp hid), by decide +kernel⟩

end BinanceWebsocketStream

end MarketBlocks
