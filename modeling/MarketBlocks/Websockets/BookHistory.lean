import MarketBlocks.Library.LastWrite
import MarketBlocks.Websockets.OrderBookCache
import Mathlib.Data.List.Induction

/-!
# The history of an order book cache

A cache is a map from side and price to an entry: after any sequence of updates a side lists
the last entry written at each of its prices, best price first, without the entries that were
written to remove a level.
-/

namespace MarketBlocks

open Library

/-- The entries of one side. -/
def OrderBookState.side (snapshot : OrderBookState) : OrderBookSide → List OrderBookEntry
  | .ask => snapshot.asks
  | .bid => snapshot.bids

/-- An update as it is handed to `update_cache`: the time stamp and the entry. -/
abbrev BookUpdate := ℤ × OrderBookEntry

namespace OrderBookCache

/-- A sequence of calls of `update_cache`. -/
def updateAll (updates : List BookUpdate) (cache : OrderBookCache) : OrderBookCache :=
  updates.foldl (fun cache update => cache.updateCache update.1 update.2) cache

/-- The last update of a side at a price, or else the entry the cache started with. -/
def lastEntry (initial : OrderBookCache) (updates : List BookUpdate) (s : OrderBookSide)
    (price : ℚ) : Option OrderBookEntry :=
  (lastWrite OrderBookEntry.level (updates.map Prod.snd) (s, price)).or
    ((initial.side s).find? fun entry => entry.price = price)

/-- The time stamp of the last update, or else the one the cache started with. -/
def lastTime (initial : OrderBookCache) (updates : List BookUpdate) : ℤ :=
  (updates.getLast?.map Prod.fst).getD initial.lastUpdate

/-- A cache whose sides are sets of their comparators and hold no entry without volume. -/
structure Filled (prices : Set ℚ) (cache : OrderBookCache) : Prop where
  sorted : ∀ s, OrderedSet.Sorted s.rank (pricedIn prices) (cache.side s)
  positive : ∀ s, ∀ entry ∈ cache.side s, 0 < entry.volume

/-- What a cache remembers of its history. -/
structure Remembers (prices : Set ℚ) (initial : OrderBookCache) (updates : List BookUpdate)
    (cache : OrderBookCache) : Prop where
  sorted : ∀ s, OrderedSet.Sorted s.rank (pricedIn prices) (cache.side s)
  mem_iff : ∀ s entry, entry ∈ cache.side s ↔
    initial.lastEntry updates s entry.price = some entry ∧ 0 < entry.volume
  lastUpdate : cache.lastUpdate = initial.lastTime updates

variable {prices : Set ℚ} {initial cache : OrderBookCache} {updates : List BookUpdate}

/-- A further update is the last at its own price. -/
theorem lastEntry_concat (initial : OrderBookCache) (updates : List BookUpdate)
    (update : BookUpdate) (s : OrderBookSide) (price : ℚ) :
    initial.lastEntry (updates ++ [update]) s price =
      if update.2.side = s ∧ update.2.price = price then some update.2
      else initial.lastEntry updates s price := by
  have hlevel : update.2.level = (s, price) ↔ update.2.side = s ∧ update.2.price = price :=
    Prod.mk.injEq .. ▸ Iff.rfl
  unfold lastEntry
  rw [List.map_append, List.map_singleton, lastWrite_concat]
  by_cases h : update.2.side = s ∧ update.2.price = price
  · rw [if_pos h, if_pos (hlevel.mpr h), Option.some_or]
  · rw [if_neg h, if_neg (mt hlevel.mp h)]

/-- The first entries of a side are found by their price. -/
theorem Filled.remembers (h : Filled prices initial) : Remembers prices initial [] initial := by
  refine ⟨h.sorted, ?_, rfl⟩
  intro s entry
  have hdistinct : (initial.side s).Pairwise fun x y => x.price ≠ y.price :=
    (h.sorted s).increasing.imp fun hlt heq => hlt.ne ((s.rank_eq_iff _ _).mpr heq)
  unfold lastEntry
  rw [List.map_nil, lastWrite_nil, Option.none_or, find?_eq_some_iff_of_pairwise hdistinct]
  constructor
  · intro hmem
    exact ⟨⟨hmem, rfl⟩, h.positive s entry hmem⟩
  · intro hfound
    exact hfound.1.1

/-- A further update is one more entry of the history. -/
theorem Remembers.updateCache (hprices : Separated prices)
    (h : Remembers prices initial updates cache) {update : BookUpdate}
    (hupdate : update.2.price ∈ prices) :
    Remembers prices initial (updates ++ [update]) (cache.updateCache update.1 update.2) := by
  refine ⟨?_, ?_, ?_⟩
  · intro s
    rw [side_updateCache]
    split
    · exact sorted_updateSide hprices s (h.sorted s) hupdate
    · exact h.sorted s
  · intro s entry
    rw [side_updateCache, lastEntry_concat]
    by_cases hside : s = update.2.side
    · rw [if_pos hside, mem_updateSide hprices s (h.sorted s) hupdate, h.mem_iff]
      by_cases hprice : update.2.price = entry.price
      · -- the level of the update
        rw [if_pos ⟨hside.symm, hprice⟩, Option.some.injEq]
        constructor
        · intro hmem
          rcases hmem with ⟨heq, hpositive⟩ | ⟨-, hne⟩
          · exact ⟨heq.symm, heq ▸ hpositive⟩
          · exact absurd hprice.symm hne
        · intro hmem
          exact .inl ⟨hmem.1.symm, hmem.1 ▸ hmem.2⟩
      · -- another level of the same side
        rw [if_neg fun hsame => hprice hsame.2]
        constructor
        · intro hmem
          rcases hmem with ⟨heq, -⟩ | ⟨hold, -⟩
          · exact absurd (heq ▸ rfl) hprice
          · exact hold
        · intro hmem
          exact .inr ⟨hmem, Ne.symm hprice⟩
    · -- the other side
      rw [if_neg hside, if_neg fun hsame => hside hsame.1.symm, h.mem_iff]
  · simp only [OrderBookCache.updateCache, lastTime, List.getLast?_concat, Option.map_some,
      Option.getD_some]
    cases update.2.side <;> rfl

/-- A cache remembers its whole history. -/
theorem remembers_updateAll (hprices : Separated prices) (hinitial : Filled prices initial)
    (updates : List BookUpdate) (hupdates : ∀ update ∈ updates, update.2.price ∈ prices) :
    Remembers prices initial updates (initial.updateAll updates) := by
  induction updates using List.reverseRecOn with
  | nil => exact hinitial.remembers
  | append_singleton updates update ih =>
    have hbefore := ih fun u hu => hupdates u (by simp [hu])
    unfold updateAll at hbefore ⊢
    rw [List.foldl_concat]
    exact hbefore.updateCache hprices (hupdates update (by simp))

/-- A cache of sorted sides is the cache made from its own snapshot. -/
theorem fromSnapshot_snapshot (hprices : Separated prices)
    (hsorted : ∀ s, OrderedSet.Sorted s.rank (pricedIn prices) (cache.side s)) :
    fromSnapshot ⟨cache.lastUpdate, cache.asks, cache.bids⟩ = cache := by
  have hasks := OrderedSet.ofList_of_sorted (OrderBookSide.orderedBy hprices .ask) (hsorted .ask)
  have hbids := OrderedSet.ofList_of_sorted (OrderBookSide.orderedBy hprices .bid) (hsorted .bid)
  exact congrArg₂ (OrderBookCache.mk cache.lastUpdate) hasks hbids

/-- A positive depth cuts both sides. -/
theorem snapshot_of_pos (cache : OrderBookCache) {depth : ℤ} (hdepth : 0 < depth) :
    cache.snapshot depth =
      .ok ⟨cache.lastUpdate, cache.asks.take depth.toNat, cache.bids.take depth.toNat⟩ := by
  have hnot : ¬depth < 0 := by omega
  rw [snapshot]
  simp only [if_neg hdepth.ne', if_neg hnot]

/-- The cache is a map from side and price to the last entry. -/
theorem updateAll_is_map (hprices : Separated prices) (hinitial : Filled prices initial)
    (updates : List BookUpdate) (hupdates : ∀ update ∈ updates, update.2.price ∈ prices) :
    ∃ snapshot, (initial.updateAll updates).snapshot = .ok snapshot ∧
      (∀ s entry, entry ∈ snapshot.side s ↔
        initial.lastEntry updates s entry.price = some entry ∧ 0 < entry.volume) ∧
      (snapshot.asks.Pairwise fun l r => l.price < r.price) ∧
      (snapshot.bids.Pairwise fun l r => l.price > r.price) ∧
      snapshot.timeStamp = initial.lastTime updates ∧
      (∀ depth > 0, ∃ top, (initial.updateAll updates).snapshot depth = .ok top ∧
        top.timeStamp = snapshot.timeStamp ∧
        ∀ s, top.side s = (snapshot.side s).take (min depth.toNat (snapshot.side s).length)) ∧
      (∀ update : BookUpdate, ∀ s, s ≠ update.2.side →
        ((initial.updateAll updates).updateCache update.1 update.2).side s =
          (initial.updateAll updates).side s) ∧
      ∀ later depth, ((fromSnapshot snapshot).updateAll later).snapshot depth =
        ((initial.updateAll updates).updateAll later).snapshot depth := by
  have h := remembers_updateAll hprices hinitial updates hupdates
  refine ⟨_, snapshot_zero _, ?_, (h.sorted .ask).increasing, ?_, h.lastUpdate, ?_, ?_, ?_⟩
  · intro s entry
    have hmem := h.mem_iff s entry
    cases s <;> exact hmem
  · exact (h.sorted .bid).increasing.imp fun hlt => neg_lt_neg_iff.mp hlt
  · intro depth hdepth
    refine ⟨_, snapshot_of_pos _ hdepth, rfl, ?_⟩
    intro s
    have htake : ∀ l : List OrderBookEntry, l.take depth.toNat = l.take (min depth.toNat l.length) :=
      fun l => List.take_eq_take_iff.mpr (by omega)
    cases s with
    | ask => exact htake (initial.updateAll updates).asks
    | bid => exact htake (initial.updateAll updates).bids
  · intro update s hside
    rw [side_updateCache, if_neg hside]
  · intro later depth
    rw [fromSnapshot_snapshot hprices h.sorted]

/-- A book of two levels a side. -/
def levelled : OrderBookCache where
  lastUpdate := 1
  asks := [⟨30, 2, .ask⟩, ⟨31, 5, .ask⟩]
  bids := [⟨29, 4, .bid⟩, ⟨27, 1, .bid⟩]

/-- A new volume, a new price, a price that goes and one that was not there. -/
def changes : List BookUpdate :=
  [(2, ⟨31, 7, .ask⟩), (3, ⟨29, 0, .bid⟩), (3, ⟨26, 0, .bid⟩), (4, ⟨28, 6, .bid⟩)]

/-- The book of two levels a side after these changes. -/
theorem updateAll_is_map_changes :
    ∃ snapshot, (levelled.updateAll changes).snapshot = .ok snapshot ∧
      (∀ s entry, entry ∈ snapshot.side s ↔
        levelled.lastEntry changes s entry.price = some entry ∧ 0 < entry.volume) ∧
      snapshot.timeStamp = 4 := by
  have hprices : Separated {price | price ∈ [26, 27, 28, 29, 30, 31]} := by
    change ∀ a ∈ [26, 27, 28, 29, 30, 31], ∀ b ∈ [26, 27, 28, 29, 30, 31],
      doubleEqual a b = true → a = b
    decide +kernel
  have hmember : ∀ s, ∀ entry ∈ levelled.side s, entry.price ∈ [26, 27, 28, 29, 30, 31] := by
    intro s
    cases s <;> decide +kernel
  have hinitial : Filled {price | price ∈ [26, 27, 28, 29, 30, 31]} levelled := by
    refine ⟨fun s => ⟨hmember s, ?_⟩, fun s => ?_⟩
    · cases s <;> decide +kernel
    · cases s <;> decide +kernel
  have hchanges : ∀ update ∈ changes, update.2.price ∈ [26, 27, 28, 29, 30, 31] := by
    decide +kernel
  obtain ⟨snapshot, hsnapshot, hmem, -, -, htime, -⟩ :=
    updateAll_is_map hprices hinitial changes hchanges
  exact ⟨snapshot, hsnapshot, hmem, htime⟩

end OrderBookCache

end MarketBlocks
