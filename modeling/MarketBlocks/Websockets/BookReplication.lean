import MarketBlocks.Library.Replication
import MarketBlocks.Websockets.BinanceWebsocket

/-!
# The cached book as a replica

The exchange numbers the updates of a book and sends the differences; the stream loads a
snapshot when the first one arrives and applies the others. The cached book of a symbol,
with its id, is thereby a replica of the book at the exchange that receives the differences
as deltas. The first difference is dropped even when the snapshot is older than it, and
what it carried is lost unless the second one carries it again.
-/

namespace MarketBlocks

open Library

/-- The book of one symbol at the exchange after each update id. Its prices are ticks, which no
comparison of doubles mistakes for each other. -/
structure ExchangeBook where
  prices : Set ℚ
  separated : Separated prices
  levels : ℤ → Levels
  nonneg : ∀ id level, 0 ≤ levels id level
  priced : ∀ id s price, levels id (s, price) ≠ 0 → price ∈ prices

/-- What a well formed `depthUpdate` carries: its id, and prices and volumes. -/
structure Difference where
  id : ℤ
  asks : List (ℚ × ℚ)
  bids : List (ℚ × ℚ)

namespace Difference

/-- The difference as Binance sends it. -/
def message (d : Difference) (symbol : String) : DepthUpdate where
  symbol := .ok symbol
  finalUpdateId := .ok d.id
  asks := .ok (d.asks.map .ok)
  bids := .ok (d.bids.map .ok)

/-- The entries that `process_order_book_element` makes of a list. -/
def entriesOf (s : OrderBookSide) (levels : List (ℚ × ℚ)) : List OrderBookEntry :=
  levels.map fun level => ⟨level.1, level.2, s⟩

/-- The entries of a difference, the asks first. -/
def entries (d : Difference) : List OrderBookEntry :=
  entriesOf .ask d.asks ++ entriesOf .bid d.bids

/-- The difference as a change of levels. -/
def delta (d : Difference) : Delta ℤ (OrderBookSide × ℚ) ℚ where
  version := d.id
  changes := d.entries.map fun entry => (entry.level, entry.volume)

/-- The deltas that replicas apply are the updates that caches make. -/
theorem apply_delta (d : Difference) (levels : Levels) :
    d.delta.apply levels = d.entries.foldl Levels.set levels := by
  simp only [Delta.apply, delta, List.foldl_map]
  rfl

/-- The difference has an entry for the level. -/
def Lists (d : Difference) (level : OrderBookSide × ℚ) : Prop :=
  ∃ entry ∈ d.entries, entry.level = level

/-- The change lists the same levels. -/
theorem lists_delta (d : Difference) (level : OrderBookSide × ℚ) :
    d.delta.Lists level ↔ d.Lists level := by
  simp only [Delta.Lists, delta, List.mem_map, Prod.mk.injEq, Lists]
  constructor
  · intro h
    obtain ⟨_, entry, hentry, hlevel, -⟩ := h
    exact ⟨entry, hentry, hlevel⟩
  · intro h
    obtain ⟨entry, hentry, hlevel⟩ := h
    exact ⟨entry.volume, entry, hentry, hlevel, rfl⟩

/-- The differences of a book after `previous`, in order and without loss. -/
structure Follow (book : ExchangeBook) (previous : ℤ) (differences : List Difference) : Prop where
  consecutive : Consecutive book.levels previous (differences.map delta)
  priced : ∀ d ∈ differences, ∀ entry ∈ d.entries, entry.price ∈ book.prices

/-- The first of some differences follows by itself. -/
theorem Follow.head {book : ExchangeBook} {previous : ℤ} {d : Difference} {rest : List Difference}
    (h : Follow book previous (d :: rest)) : Follow book previous [d] where
  consecutive := ⟨h.consecutive.1, trivial⟩
  priced := fun d' hd' => h.priced d' (List.mem_singleton.mp hd' ▸ List.mem_cons_self)

/-- The others follow the first. -/
theorem Follow.tail {book : ExchangeBook} {previous : ℤ} {d : Difference} {rest : List Difference}
    (h : Follow book previous (d :: rest)) : Follow book d.id rest where
  consecutive := h.consecutive.2
  priced := fun d' hd' => h.priced d' (by simp [hd'])

/-- What the first difference carries after the snapshot is carried again by the second one. -/
def MissesNothing (book : ExchangeBook) (snapshotId : ℤ) : List Difference → Prop
  | [] => True
  | first :: rest => first.id ≤ snapshotId ∨ ∀ second ∈ rest.head?, ∀ level, ¬second.Lists level →
      book.levels snapshotId level = book.levels first.id level

end Difference

namespace BinanceWebsocketStream

/-- The cached book of a symbol, with its id, is the replica. -/
structure Mirrors (book : ExchangeBook) (symbol : String) (s : BinanceWebsocketStream)
    (r : Replica ℤ (OrderBookSide × ℚ) ℚ) : Prop where
  pair : symbol ∈ s.pairs
  id : s.orderBookIds.lookup symbol = some r.version
  cached : ∃ cache, s.orderBooks.lookup symbol = some cache ∧
    cache.Represents book.prices r.values
  nonneg : ∀ level, 0 ≤ r.values level

/-- The cached book of a symbol is the book of the exchange at the id it stands at. -/
def Replicates (book : ExchangeBook) (symbol : String) (s : BinanceWebsocketStream) : Prop :=
  ∃ id cache, s.orderBookIds.lookup symbol = some id ∧ s.orderBooks.lookup symbol = some cache ∧
    cache.Represents book.prices (book.levels id)

variable {book : ExchangeBook} {symbol : String} {s : BinanceWebsocketStream}
variable {r : Replica ℤ (OrderBookSide × ℚ) ℚ}

/-- A stream replicates the book exactly when the replica that it mirrors is consistent. -/
theorem Mirrors.replicates_iff (h : Mirrors book symbol s r) :
    Replicates book symbol s ↔ r.Consistent book.levels := by
  obtain ⟨cache, hcache, hrepresents⟩ := h.cached
  constructor
  · intro hreplicates
    obtain ⟨id, cache', hid, hcache', hrepresents'⟩ := hreplicates
    have hversion : id = r.version := Option.some.inj (hid.symm.trans h.id)
    have hsame : cache' = cache := Option.some.inj (hcache'.symm.trans hcache)
    subst hsame
    rw [hversion] at hrepresents'
    exact hrepresents.levels_unique hrepresents' h.nonneg (book.nonneg r.version)
  · intro hconsistent
    have hvalues : r.values = book.levels r.version := hconsistent
    exact ⟨r.version, cache, h.id, hcache, hvalues ▸ hrepresents⟩

/-- What callers read is the whole book of the exchange. -/
theorem Replicates.getOrderBook {pair : TradablePair} (h : Replicates book symbol s)
    (hpair : pair.toStringWith s.pairSeparator = symbol) :
    ∃ id state, s.orderBookIds.lookup symbol = some id ∧
      s.getOrderBook pair 0 = .ok state ∧ state.Lists (book.levels id) := by
  obtain ⟨id, cache, hid, hcache, hrepresents⟩ := h
  refine ⟨id, ⟨cache.lastUpdate, cache.asks, cache.bids⟩, hid, ?_, ?_⟩
  · rw [ExchangeWebsocketStream.getOrderBook, hpair, hcache]
    exact cache.snapshot_zero
  · exact ⟨hrepresents.mem_iff .ask, hrepresents.mem_iff .bid⟩

/-! ## What one message does -/

/-- The entries of one side, all readable, update the cached book one after the other. -/
theorem processOrderBookElement_ok (side : OrderBookSide) (id : ℤ) (levels : List (ℚ × ℚ))
    {cache : OrderBookCache} (hpair : symbol ∈ s.pairs)
    (hcache : s.orderBooks.lookup symbol = some cache) :
    (processOrderBookElement side symbol id (levels.map .ok) s).1 = .ok () ∧
      (processOrderBookElement side symbol id (levels.map .ok) s).2.orderBooks.lookup symbol =
        some ((Difference.entriesOf side levels).foldl
          (fun cache entry => cache.updateCache id entry) cache) := by
  induction levels generalizing s cache with
  | nil => exact ⟨rfl, hcache⟩
  | cons level rest ih =>
    have hupdate := updateOrderBook_worksOn symbol id ⟨level.1, level.2, side⟩ s
    have hresult : (s.common (·.updateOrderBook symbol id ⟨level.1, level.2, side⟩)).1 = .ok () := by
      simp only [common, ExchangeWebsocketStream.updateOrderBook_eq]
      exact ExchangeWebsocketStream.fire_ok _ _ _ _ hpair
    have hbook : (s.common (·.updateOrderBook symbol id
        ⟨level.1, level.2, side⟩)).2.orderBooks.lookup symbol =
          some (cache.updateCache id ⟨level.1, level.2, side⟩) := by
      simp [common, ExchangeWebsocketStream.updateOrderBook_eq, hcache]
    rw [List.map_cons]
    unfold processOrderBookElement
    rcases hstate : s.common (·.updateOrderBook symbol id ⟨level.1, level.2, side⟩) with ⟨result, s'⟩
    rw [hstate] at hupdate hresult hbook
    simp only at hresult hbook
    subst hresult
    exact ih (hupdate.pairs ▸ hpair) hbook

/-- A difference that is applied takes the book to the id of the difference. -/
theorem applyOrderBook_ok (d : Difference) {cache : OrderBookCache} (hpair : symbol ∈ s.pairs)
    (hcache : s.orderBooks.lookup symbol = some cache) :
    let s' := (s.applyOrderBook symbol d.id (d.message symbol)).2
    symbol ∈ s'.pairs ∧ s'.orderBookIds.lookup symbol = some d.id ∧
      s'.orderBooks.lookup symbol = some (d.entries.foldl
        (fun cache entry => cache.updateCache d.id entry) cache) := by
  have hasks := processOrderBookElement_ok .ask d.id d.asks hpair hcache
  have hasksFrame := processOrderBookElement_worksOn .ask symbol d.id (d.asks.map .ok) s
  rcases hask : processOrderBookElement .ask symbol d.id (d.asks.map .ok) s with ⟨result, s₁⟩
  rw [hask] at hasks hasksFrame
  obtain ⟨hresult, hbook⟩ := hasks
  simp only at hresult hbook
  have hpair₁ : symbol ∈ s₁.pairs := hasksFrame.pairs ▸ hpair
  have hbids := processOrderBookElement_ok .bid d.id d.bids hpair₁ hbook
  have hbidsFrame := processOrderBookElement_worksOn .bid symbol d.id (d.bids.map .ok) s₁
  rcases hbid : processOrderBookElement .bid symbol d.id (d.bids.map .ok) s₁ with ⟨result', s₂⟩
  rw [hbid] at hbids hbidsFrame
  obtain ⟨hresult', hbook'⟩ := hbids
  simp only at hresult' hbook'
  have happly : s.applyOrderBook symbol d.id (d.message symbol) =
      (.ok (), { s₂ with orderBookIds := s₂.orderBookIds.insert symbol d.id }) := by
    simp only [applyOrderBook, processOrderBookSide, Difference.message, hask, hbid, hresult,
      hresult']
  simp only [happly]
  refine ⟨hbidsFrame.pairs ▸ hpair₁, Finmap.lookup_insert _, ?_⟩
  rw [Difference.entries, List.foldl_append]
  exact hbook'

/-- A difference that arrives at a loaded symbol is received by the replica. -/
theorem Mirrors.receive (h : Mirrors book symbol s r) {previous : ℤ} {d : Difference}
    (hd : Difference.Follow book previous [d]) (network : Network) :
    Mirrors book symbol (s.step (.message (.depthUpdate (d.message symbol)), network))
      (r.receive d.delta) := by
  obtain ⟨cache, hcache, hrepresents⟩ := h.cached
  have hstep : s.step (.message (.depthUpdate (d.message symbol)), network) =
      if d.id ≤ r.version then s else (s.applyOrderBook symbol d.id (d.message symbol)).2 := by
    simp only [step, handle, onMessage, processOrderBookMessage, Difference.message, h.id]
    split <;> rfl
  rw [hstep]
  unfold Replica.receive
  by_cases hold : d.id ≤ r.version
  · rw [if_pos hold, if_pos (show d.delta.version ≤ r.version from hold)]
    exact h
  · rw [if_neg hold, if_neg (show ¬d.delta.version ≤ r.version from hold)]
    obtain ⟨hpair', hid', hcache'⟩ := applyOrderBook_ok d h.pair hcache
    have hpriced := hd.priced d (by simp)
    refine ⟨hpair', hid', ⟨_, hcache', ?_⟩, ?_⟩
    · rw [d.apply_delta]
      exact hrepresents.foldl_updateCache book.separated d.id hpriced
    · -- the values come from the replica or from the book at the id of the difference
      intro level
      show 0 ≤ d.delta.apply r.values level
      have hcarries : Carries book.levels previous d.delta := hd.consecutive.1
      by_cases hlisted : d.delta.Lists level
      · rw [hcarries.apply_of_lists r.values hlisted]
        exact book.nonneg _ level
      · rw [hcarries.apply_of_not_lists r.values hlisted]
        exact h.nonneg level

/-- An event that is not seen by the symbol is not seen by its replica. -/
theorem Mirrors.agreesAt (h : Mirrors book symbol s r) {s' : BinanceWebsocketStream}
    (hagrees : AgreesAt symbol s s') : Mirrors book symbol s' r where
  pair := by
    obtain ⟨pair, hlookup⟩ := Finmap.mem_iff.mp h.pair
    exact Finmap.mem_of_lookup_eq_some ((hagrees.pair h.pair).trans hlookup)
  id := hagrees.id.trans h.id
  cached := by
    rw [hagrees.book]
    exact h.cached
  nonneg := h.nonneg

/-! ## Whole connections -/

/-- The inputs of one connection: the updates are those of the symbol, each with the network it
meets, and anything but a reset or a disconnection may come between. -/
inductive Delivers (symbol : String) :
    List (Difference × Network) → List (Event × Network) → Prop
  | nil : Delivers symbol [] []
  | update (d : Difference) (network : Network) {updates inputs} :
      Delivers symbol updates inputs → Delivers symbol ((d, network) :: updates)
        ((.message (.depthUpdate (d.message symbol)), network) :: inputs)
  | other (input : Event × Network) {updates inputs} :
      ¬input.1.Concerns symbol → input.1 ≠ .reset → input.1 ≠ .disconnect →
      Delivers symbol updates inputs → Delivers symbol updates (input :: inputs)

/-- Anything else on the connection is not seen by the symbol. -/
theorem step_other_agreesAt (s : BinanceWebsocketStream) {input : Event × Network}
    (hconcerns : ¬input.1.Concerns symbol) (hreset : input.1 ≠ .reset)
    (hdisconnect : input.1 ≠ .disconnect) : AgreesAt symbol s (s.step input) := by
  apply step_agreesAt s input hconcerns
  intro hclears
  rcases hclears.1 with heq | heq
  · exact hreset heq
  · exact hdisconnect heq

/-- From a loaded symbol on, the book is right throughout exactly when the replica is. -/
theorem Mirrors.run_iff {previous : ℤ} {updates : List (Difference × Network)}
    {inputs : List (Event × Network)} (h : Mirrors book symbol s r)
    (hfollow : Difference.Follow book previous (updates.map Prod.fst))
    (hdelivers : Delivers symbol updates inputs) :
    (∀ before, before <+: inputs → Replicates book symbol (before.foldl step s)) ↔
      ∀ deltas, deltas <+: (updates.map Prod.fst).map Difference.delta →
        (deltas.foldl Replica.receive r).Consistent book.levels := by
  induction hdelivers generalizing s r previous with
  | nil =>
    simp only [List.map_nil, List.prefix_nil, forall_eq, List.foldl_nil]
    exact h.replicates_iff
  | update d network _ ih =>
    simp only [List.map_cons, forall_prefix_cons, List.foldl_nil, List.foldl_cons,
      h.replicates_iff, ih (h.receive hfollow.head network) hfollow.tail]
  | other input hconcerns hreset hdisconnect _ ih =>
    have hstep := h.agreesAt (step_other_agreesAt s hconcerns hreset hdisconnect)
    simp only [forall_prefix_cons, List.foldl_nil, List.foldl_cons, ih hstep hfollow]
    constructor
    · exact And.right
    · intro hall
      exact ⟨h.replicates_iff.mpr (hall [] List.nil_prefix), hall⟩

/-- The first difference of a symbol loads the book of the snapshot. -/
private theorem mirrors_load {pair : TradablePair} {snapshot : OrderBookState} {network : Network}
    (d : Difference) (hpair : s.pairs.lookup symbol = some pair) (hid : symbol ∉ s.orderBookIds)
    (hnetwork : network.getOrderBook pair 100 = .ok snapshot)
    (hsnapshot : snapshot.Lists (book.levels snapshot.timeStamp)) :
    Mirrors book symbol (s.step (.message (.depthUpdate (d.message symbol)), network))
      ⟨snapshot.timeStamp, book.levels snapshot.timeStamp⟩ := by
  have hstep : s.step (.message (.depthUpdate (d.message symbol)), network) =
      ({ s with orderBookIds := s.orderBookIds.insert symbol snapshot.timeStamp }.common
        (·.initialiseOrderBook symbol (OrderBookCache.fromSnapshot snapshot))).2 := by
    simp only [step, handle, onMessage, processOrderBookMessage, Difference.message,
      Finmap.lookup_eq_none.mpr hid, loadOrderBook, hpair, hnetwork]
  rw [hstep]
  refine ⟨?_, Finmap.lookup_insert _, ⟨OrderBookCache.fromSnapshot snapshot, ?_, ?_⟩, ?_⟩
  · simpa [common, ExchangeWebsocketStream.initialiseOrderBook] using
      Finmap.mem_of_lookup_eq_some hpair
  · simp [common, ExchangeWebsocketStream.initialiseOrderBook]
  · exact OrderBookCache.fromSnapshot_represents book.separated hsnapshot (book.priced _)
  · exact book.nonneg _

/-- On one connection, for a symbol that is registered and has no id yet, whose snapshot is the
book at `snapshotId`: after each of its messages the cached book is the book of the exchange
at the id it stands at, exactly when the drop of the first difference loses nothing. -/
theorem run_replicates_iff {previous snapshotId : ℤ} {pair : TradablePair}
    {updates : List (Difference × Network)} {inputs : List (Event × Network)}
    (hpair : s.pairs.lookup symbol = some pair) (hid : symbol ∉ s.orderBookIds)
    (hfollow : Difference.Follow book previous (updates.map Prod.fst))
    (hdelivers : Delivers symbol updates inputs)
    (hsnapshot : ∀ first ∈ updates.head?, ∃ snapshot, first.2.getOrderBook pair 100 = .ok snapshot ∧
      snapshot.timeStamp = snapshotId ∧ snapshot.Lists (book.levels snapshotId)) :
    (∀ before, before <+: inputs → (∃ input ∈ before, input.1.Concerns symbol) →
        Replicates book symbol (before.foldl step s)) ↔
      Difference.MissesNothing book snapshotId (updates.map Prod.fst) := by
  induction hdelivers generalizing s with
  | nil => simp [Difference.MissesNothing]
  | @update d network updates inputs hdelivers _ =>
    obtain ⟨snapshot, hnetwork, htime, hlists⟩ := hsnapshot (d, network) rfl
    subst htime
    have hloaded := mirrors_load d hpair hid hnetwork hlists
    have hrest := hloaded.run_iff hfollow.tail hdelivers
    rw [Replica.loaded_consistent_iff snapshot.timeStamp hfollow.consecutive.2] at hrest
    simp only [forall_prefix_cons, List.foldl_cons]
    constructor
    · intro hall
      have hself : Event.Concerns symbol (.message (.depthUpdate (d.message symbol))) := rfl
      have hcaught := hrest.mp fun before hpart =>
        hall.2 before hpart ⟨_, List.mem_cons_self, hself⟩
      rcases hcaught with hnew | hsecond
      · exact .inl hnew
      · refine .inr fun second hhead level hlevel => ?_
        refine hsecond second.delta ?_ level fun hlisted => hlevel ((second.lists_delta level).mp hlisted)
        rw [List.head?_map, Option.mem_map]
        exact ⟨second, hhead, rfl⟩
    · intro hcaught
      refine ⟨fun hnone => by simp at hnone, fun before hpart _ => hrest.mpr ?_ before hpart⟩
      rcases hcaught with hnew | hsecond
      · exact .inl hnew
      · refine .inr fun delta hdelta level hlevel => ?_
        rw [List.head?_map, Option.mem_map] at hdelta
        obtain ⟨second, hhead, heq⟩ := hdelta
        subst heq
        exact hsecond second hhead level fun hlisted => hlevel ((second.lists_delta level).mpr hlisted)
  | @other input updates inputs hconcerns hreset hdisconnect _ ih =>
    have hagrees := step_other_agreesAt s hconcerns hreset hdisconnect
    have hpair' := (hagrees.pair (Finmap.mem_of_lookup_eq_some hpair)).trans hpair
    have hid' : symbol ∉ (s.step input).orderBookIds := by
      rw [← Finmap.lookup_eq_none, hagrees.id]
      exact Finmap.lookup_eq_none.mpr hid
    rw [← ih hpair' hid' hfollow hsnapshot]
    have hpast : ∀ before : List (Event × Network),
        (∃ i ∈ input :: before, i.1.Concerns symbol) ↔ ∃ i ∈ before, i.1.Concerns symbol := by
      intro before
      simp only [List.mem_cons, or_and_right, exists_or, exists_eq_left]
      exact or_iff_right hconcerns
    simp only [forall_prefix_cons, hpast, List.foldl_cons, List.not_mem_nil, false_and, exists_false,
      false_implies, true_and]

/-! ## A level that goes while the snapshot is fetched -/

/-- Two asks: the update with id 2 takes the one at 101 away, the one with id 3 makes the one at
100 grow. -/
def thinningBook : ExchangeBook where
  prices := {price | (∃ n : ℤ, price = n * 1) ∧ |price| ≤ 1000}
  separated := separated_multiples (by norm_num [epsilon]) (by norm_num [epsilon])
  levels := fun id level =>
    if level = (.ask, 100) then if id < 3 then 1 else 5
    else if level = (.ask, 101) then if id < 2 then 2 else 0
    else 0
  nonneg := by
    intro id level
    split_ifs <;> norm_num
  priced := by
    intro id s price hlevel
    by_cases h100 : (s, price) = (.ask, 100)
    · have hprice : price = 100 := congrArg Prod.snd h100
      exact ⟨⟨100, by norm_num [hprice]⟩, by norm_num [hprice]⟩
    · by_cases h101 : (s, price) = (.ask, 101)
      · have hprice : price = 101 := congrArg Prod.snd h101
        exact ⟨⟨101, by norm_num [hprice]⟩, by norm_num [hprice]⟩
      · rw [if_neg h100, if_neg h101] at hlevel
        exact absurd rfl hlevel

/-- Two differences, each of which changes one level. -/
def thinningDifferences : List Difference := [⟨2, [(101, 0)], []⟩, ⟨3, [(100, 5)], []⟩]

/-- The two differences follow the book. -/
theorem thinningDifferences_follow :
    Difference.Follow thinningBook 1 thinningDifferences where
  consecutive := by
    refine ⟨⟨by decide, by decide +kernel, ?_⟩, ⟨by decide, by decide +kernel, ?_⟩, trivial⟩
    · intro level hlevel id _ hafter
      have hne : level ≠ (.ask, 101) := fun heq => hlevel ⟨0, heq ▸ List.mem_singleton.mpr rfl⟩
      have hearly : ∀ k : ℤ, k < 3 →
          thinningBook.levels k level = if level = (.ask, 100) then 1 else 0 := by
        intro k hk
        simp only [thinningBook, if_pos hk, if_neg hne]
      rw [hearly id (Int.lt_add_one_of_le hafter), hearly _ (by decide)]
    · intro level hlevel id hbefore _
      have hne : level ≠ (.ask, 100) := fun heq => hlevel ⟨5, heq ▸ List.mem_singleton.mpr rfl⟩
      have hlate : ∀ k : ℤ, ¬k < 2 → thinningBook.levels k level = 0 := by
        intro k hk
        simp only [thinningBook, if_neg hk, if_neg hne, ite_self]
      rw [hlate id (not_lt.mpr hbefore), hlate _ (by decide)]
  priced := by
    intro d hd entry hentry
    simp only [thinningDifferences, List.mem_cons, List.not_mem_nil, or_false] at hd
    rcases hd with heq | heq
    all_goals
      subst heq
      simp only [Difference.entries, Difference.entriesOf, List.map_cons, List.map_nil,
        List.append_nil, List.mem_singleton] at hentry
      subst hentry
    · exact ⟨⟨101, by norm_num⟩, by norm_num⟩
    · exact ⟨⟨100, by norm_num⟩, by norm_num⟩

/-- What the REST API reports before the level has gone, and after. -/
def thinningSnapshot (id : ℤ) : OrderBookState where
  timeStamp := id
  asks := if id < 2 then [⟨100, 1, .ask⟩, ⟨101, 2, .ask⟩] else [⟨100, 1, .ask⟩]
  bids := []

/-- The snapshot shows the book at its id. -/
theorem thinningSnapshot_lists {id : ℤ} (hid : id < 3) :
    (thinningSnapshot id).Lists (thinningBook.levels id) where
  asks := by
    intro entry
    obtain ⟨price, volume, s⟩ := entry
    simp only [thinningSnapshot, thinningBook, if_pos hid, Prod.mk.injEq, true_and]
    by_cases h100 : price = 100
    · split <;> simp [h100] <;> grind
    · by_cases h101 : price = 101
      · split <;> simp [h101] <;> grind
      · split <;> simp [h100, h101] <;> grind
  bids := by
    intro entry
    simp only [thinningSnapshot, thinningBook, Prod.mk.injEq, List.not_mem_nil, reduceCtorEq,
      false_and, if_false, false_iff]
    intro h
    exact absurd h.2.2 h.2.1.ne'

/-- A stream that is connected and subscribed to the book of `BTCGBP`. -/
def subscribed : BinanceWebsocketStream :=
  [(.reset, Network.reporting (thinningSnapshot 0)),
    (.subscribe (.createOrderBookSub [⟨"BTC", "GBP"⟩]), Network.reporting (thinningSnapshot 0))].foldl
    step create

/-- The messages of the two differences; the snapshot is taken at `snapshotId`. -/
def thinningUpdates (snapshotId : ℤ) : List (Difference × Network) :=
  thinningDifferences.map fun d => (d, Network.reporting (thinningSnapshot snapshotId))

/-- The updates as the stream gets them, with what the network answers meanwhile. -/
def thinningInputs (snapshotId : ℤ) : List (Event × Network) :=
  (thinningUpdates snapshotId).map fun update =>
    (.message (.depthUpdate (update.1.message "BTCGBP")), update.2)

/-- With a snapshot at id 2, which has seen the level go, the book is right throughout. -/
theorem run_replicates_thinning :
    (thinningSnapshot 2).Lists (thinningBook.levels 2) ∧
      ∀ before, before <+: thinningInputs 2 → (∃ input ∈ before, input.1.Concerns "BTCGBP") →
        Replicates thinningBook "BTCGBP" (before.foldl step subscribed) := by
  have hlists : (thinningSnapshot 2).Lists (thinningBook.levels 2) :=
    thinningSnapshot_lists (by decide)
  have hpair : subscribed.pairs.lookup "BTCGBP" = some ⟨"BTC", "GBP"⟩ := by decide +kernel
  refine ⟨hlists, (run_replicates_iff hpair (by decide +kernel) thinningDifferences_follow
    (.update _ _ (.update _ _ .nil)) ?_).mpr (.inl le_rfl)⟩
  intro first hfirst
  cases hfirst
  exact ⟨thinningSnapshot 2, rfl, rfl, hlists⟩

/-- A snapshot at id 1 still has the level at 101. The difference that takes it away is dropped,
and at id 3 the cached book offers at 101 what the exchange does not. -/
theorem run_keeps_gone_level :
    (thinningSnapshot 1).Lists (thinningBook.levels 1) ∧
      ((thinningInputs 1).foldl step subscribed).getOrderBook ⟨"BTC", "GBP"⟩ 0 =
        .ok ⟨3, [⟨100, 5, .ask⟩, ⟨101, 2, .ask⟩], []⟩ ∧
      ¬ (∀ before, before <+: thinningInputs 1 → (∃ input ∈ before, input.1.Concerns "BTCGBP") →
        Replicates thinningBook "BTCGBP" (before.foldl step subscribed)) := by
  have hread : ((thinningInputs 1).foldl step subscribed).getOrderBook ⟨"BTC", "GBP"⟩ 0 =
      .ok ⟨3, [⟨100, 5, .ask⟩, ⟨101, 2, .ask⟩], []⟩ := by decide +kernel
  refine ⟨thinningSnapshot_lists (by decide), hread, fun hall => ?_⟩
  have hfirst : ∃ input ∈ thinningInputs 1, input.1.Concerns "BTCGBP" :=
    ⟨_, List.mem_cons_self, by simp [Event.Concerns, Difference.message]⟩
  have hlast := hall (thinningInputs 1) (List.prefix_refl _) hfirst
  have hname : TradablePair.toStringWith ⟨"BTC", "GBP"⟩
      ((thinningInputs 1).foldl step subscribed).pairSeparator = "BTCGBP" := by decide +kernel
  obtain ⟨id, state, hid, hstate, hlists⟩ := hlast.getOrderBook hname
  have hthree : ((thinningInputs 1).foldl step subscribed).orderBookIds.lookup "BTCGBP" = some 3 := by
    decide +kernel
  cases hid.symm.trans hthree
  cases hstate.symm.trans hread
  have hgone := ((hlists.asks ⟨101, 2, .ask⟩).mp (by simp)).2.2
  revert hgone
  decide +kernel

end BinanceWebsocketStream

end MarketBlocks
