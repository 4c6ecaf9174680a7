import MarketBlocks.Common.Fault
import MarketBlocks.Common.MathUtils
import MarketBlocks.Library.OrderedSet
import MarketBlocks.Trading.Market
import Mathlib.Logic.Function.Basic

/-!
# The order book cache

`order_book_cache` keeps the two sides of a book as ordered sets of entries, best price
first: the asks by increasing and the bids by decreasing price. What a cache stands for is a
function from side and price to the volume offered there.
-/

namespace MarketBlocks

open Library

/-- The comparator of the asks. -/
def entryLessThan (l r : OrderBookEntry) : Bool := doubleLessThan l.price r.price

/-- The comparator of the bids. -/
def entryGreaterThan (l r : OrderBookEntry) : Bool := doubleGreaterThan l.price r.price

/-- The comparator of one side. -/
def OrderBookSide.compare : OrderBookSide → OrderBookEntry → OrderBookEntry → Bool
  | .ask => entryLessThan
  | .bid => entryGreaterThan

/-- `order_book_cache`. -/
structure OrderBookCache where
  lastUpdate : ℤ
  asks : List OrderBookEntry
  bids : List OrderBookEntry
  deriving DecidableEq, Repr

namespace OrderBookCache

/-- The entries of one side. -/
def side (cache : OrderBookCache) : OrderBookSide → List OrderBookEntry
  | .ask => cache.asks
  | .bid => cache.bids

/-- `update_cache` of the anonymous namespace, which works on the set of one side. -/
def updateSide (compare : OrderBookEntry → OrderBookEntry → Bool) (set : List OrderBookEntry)
    (entry : OrderBookEntry) : List OrderBookEntry :=
  if entry.volume > 0 then OrderedSet.insert compare entry (OrderedSet.erase compare entry set)
  else OrderedSet.erase compare entry set

/-- `update_cache`, on the side of the entry. -/
def updateCache (timeStamp : ℤ) (entry : OrderBookEntry) (cache : OrderBookCache) :
    OrderBookCache :=
  match entry.side with
  | .ask => { cache with
      lastUpdate := timeStamp, asks := updateSide entryLessThan cache.asks entry }
  | .bid => { cache with
      lastUpdate := timeStamp, bids := updateSide entryGreaterThan cache.bids entry }

/-- A negative depth would step back from the beginning of a set. -/
def snapshot (cache : OrderBookCache) (depth : ℤ := 0) : Except Fault OrderBookState :=
  let depth := if depth = 0 then max (cache.asks.length : ℤ) cache.bids.length else depth
  if depth < 0 then .error .undefined
  else .ok {
    timeStamp := cache.lastUpdate
    asks := cache.asks.take depth.toNat
    bids := cache.bids.take depth.toNat }

/-- The constructor from a snapshot, which sorts both sides. -/
def fromSnapshot (snapshot : OrderBookState) : OrderBookCache where
  lastUpdate := snapshot.timeStamp
  asks := OrderedSet.ofList entryLessThan snapshot.asks
  bids := OrderedSet.ofList entryGreaterThan snapshot.bids

/-- The default depth is the whole book. -/
theorem snapshot_zero (cache : OrderBookCache) :
    cache.snapshot = .ok ⟨cache.lastUpdate, cache.asks, cache.bids⟩ := by
  have hdepth : ¬max (cache.asks.length : ℤ) cache.bids.length < 0 := by omega
  have htoNat : (max (cache.asks.length : ℤ) cache.bids.length).toNat
      = max cache.asks.length cache.bids.length := by omega
  simp only [snapshot, if_true, if_neg hdepth, htoNat]
  rw [List.take_of_length_le (by omega), List.take_of_length_le (by omega)]

/-- An update works on the side of its entry. -/
theorem side_updateCache (timeStamp : ℤ) (entry : OrderBookEntry) (cache : OrderBookCache)
    (s : OrderBookSide) :
    (cache.updateCache timeStamp entry).side s =
      if s = entry.side then updateSide s.compare (cache.side s) entry else cache.side s := by
  unfold updateCache
  cases entry.side <;> cases s <;> rfl

end OrderBookCache

/-! ## What a cache stands for -/

/-- The volume offered at each price of each side, zero where there is no level. -/
abbrev Levels := OrderBookSide × ℚ → ℚ

/-- The level that an entry is about. -/
def OrderBookEntry.level (entry : OrderBookEntry) : OrderBookSide × ℚ := (entry.side, entry.price)

/-- One level replaced. -/
def Levels.set (levels : Levels) (entry : OrderBookEntry) : Levels :=
  Function.update levels entry.level entry.volume

/-- The position of an entry on a side: the best price has the least rank. -/
def OrderBookSide.rank : OrderBookSide → OrderBookEntry → ℚ
  | .ask => fun entry => entry.price
  | .bid => fun entry => -entry.price

/-- Entries rank alike exactly when they have one price. -/
theorem OrderBookSide.rank_eq_iff (s : OrderBookSide) (l r : OrderBookEntry) :
    s.rank l = s.rank r ↔ l.price = r.price := by
  cases s <;> simp [rank]

/-- The entries with a price of the set. -/
def pricedIn (prices : Set ℚ) : Set OrderBookEntry := {entry | entry.price ∈ prices}

/-- On separated prices the comparator of a side orders by price. -/
theorem OrderBookSide.orderedBy {prices : Set ℚ} (hprices : Separated prices) (s : OrderBookSide) :
    OrderedSet.OrderedBy s.compare s.rank (pricedIn prices) := by
  intro l hl r hr
  cases s with
  | ask => exact hprices.doubleLessThan_iff hl hr
  | bid => exact (hprices.doubleGreaterThan_iff hl hr).trans neg_lt_neg_iff.symm

namespace OrderBookCache

/-- The cache is the book with these levels: each side lists, best price first, exactly the
levels that offer something. -/
structure Represents (prices : Set ℚ) (levels : Levels) (cache : OrderBookCache) : Prop where
  sorted : ∀ s, OrderedSet.Sorted s.rank (pricedIn prices) (cache.side s)
  mem_iff : ∀ s entry, entry ∈ cache.side s ↔
    entry.side = s ∧ 0 < entry.volume ∧ entry.volume = levels (s, entry.price)

variable {prices : Set ℚ} {levels : Levels} {cache : OrderBookCache}

/-- The update of a side keeps it sorted. -/
theorem sorted_updateSide (hprices : Separated prices) (s : OrderBookSide)
    {set : List OrderBookEntry} (hset : OrderedSet.Sorted s.rank (pricedIn prices) set)
    {entry : OrderBookEntry} (hentry : entry.price ∈ prices) :
    OrderedSet.Sorted s.rank (pricedIn prices) (updateSide s.compare set entry) := by
  have hkept := hset.sublist (OrderedSet.erase_sublist s.compare entry set)
  unfold updateSide
  split
  · exact hkept.insert (s.orderedBy hprices) hentry
  · exact hkept

/-- The update of a side replaces what is listed at the price of the entry. -/
theorem mem_updateSide (hprices : Separated prices) (s : OrderBookSide)
    {set : List OrderBookEntry} (hset : OrderedSet.Sorted s.rank (pricedIn prices) set)
    {entry : OrderBookEntry} (hentry : entry.price ∈ prices) (other : OrderBookEntry) :
    other ∈ updateSide s.compare set entry ↔
      other = entry ∧ 0 < entry.volume ∨ other ∈ set ∧ other.price ≠ entry.price := by
  have hkept := hset.sublist (OrderedSet.erase_sublist s.compare entry set)
  have herase : ∀ e, e ∈ OrderedSet.erase s.compare entry set ↔
      e ∈ set ∧ s.rank e ≠ s.rank entry := fun e =>
    OrderedSet.mem_erase (s.orderedBy hprices) hset hentry
  unfold updateSide
  split
  · next hvolume =>
    rw [OrderedSet.mem_insert (s.orderedBy hprices) hkept hentry, herase, Ne, s.rank_eq_iff]
    constructor
    · intro h
      rcases h with hold | ⟨hnew, -⟩
      · exact .inr hold
      · exact .inl ⟨hnew, hvolume⟩
    · intro h
      rcases h with ⟨hnew, -⟩ | hold
      · exact .inr ⟨hnew, fun e he => ((herase e).mp he).2⟩
      · exact .inl hold
  · next hvolume =>
    rw [herase, Ne, s.rank_eq_iff]
    constructor
    · exact .inr
    · intro h
      rcases h with ⟨-, hpositive⟩ | hold
      · exact absurd hpositive hvolume
      · exact hold

/-- An update of the cache is an update of its level. -/
theorem Represents.updateCache (hprices : Separated prices) (h : Represents prices levels cache)
    (timeStamp : ℤ) {entry : OrderBookEntry} (hentry : entry.price ∈ prices) :
    Represents prices (levels.set entry) (cache.updateCache timeStamp entry) := by
  refine ⟨?_, ?_⟩
  · intro s
    rw [side_updateCache]
    split
    · exact sorted_updateSide hprices s (h.sorted s) hentry
    · exact h.sorted s
  · intro s other
    rw [side_updateCache]
    split
    · next hside =>
      rw [mem_updateSide hprices s (h.sorted s) hentry, h.mem_iff]
      by_cases hprice : other.price = entry.price
      · have hlevel : levels.set entry (s, other.price) = entry.volume := by
          rw [hside, hprice]
          exact Function.update_self _ _ _
        rw [hlevel]
        constructor
        · intro hmem
          rcases hmem with ⟨heq, hpositive⟩ | ⟨-, hne⟩
          · subst heq
            exact ⟨hside.symm, hpositive, rfl⟩
          · exact absurd hprice hne
        · intro hmem
          obtain ⟨hother, hpositive, hvolume⟩ := hmem
          have heq := OrderBookEntry.eq_of_level hprice hvolume (hother.trans hside)
          exact .inl ⟨heq, hvolume ▸ hpositive⟩
      · have hlevel : levels.set entry (s, other.price) = levels (s, other.price) :=
          Function.update_of_ne (fun hsame => hprice (congrArg Prod.snd hsame)) _ _
        rw [hlevel]
        constructor
        · intro hmem
          rcases hmem with ⟨heq, -⟩ | ⟨hold, -⟩
          · exact absurd (heq ▸ rfl) hprice
          · exact hold
        · intro hmem
          exact .inr ⟨hmem, hprice⟩
    · next hside =>
      have hlevel : levels.set entry (s, other.price) = levels (s, other.price) :=
        Function.update_of_ne (fun hsame => hside (congrArg Prod.fst hsame)) _ _
      rw [h.mem_iff, hlevel]

/-- A cache stands for one book only. -/
theorem Represents.levels_unique {levels' : Levels} (h : Represents prices levels cache)
    (h' : Represents prices levels' cache) (hnonneg : ∀ level, 0 ≤ levels level)
    (hnonneg' : ∀ level, 0 ≤ levels' level) : levels = levels' := by
  funext level
  obtain ⟨s, price⟩ := level
  rcases (hnonneg (s, price)).eq_or_lt with hzero | hpositive
  · rcases (hnonneg' (s, price)).eq_or_lt with hzero' | hpositive'
    · rw [← hzero, ← hzero']
    · have hentry := (h'.mem_iff s ⟨price, levels' (s, price), s⟩).mpr ⟨rfl, hpositive', rfl⟩
      exact ((h.mem_iff s _).mp hentry).2.2.symm
  · have hentry := (h.mem_iff s ⟨price, levels (s, price), s⟩).mpr ⟨rfl, hpositive, rfl⟩
    exact ((h'.mem_iff s _).mp hentry).2.2

/-- A list of updates of the cache is the list of updates of its levels. -/
theorem Represents.foldl_updateCache (hprices : Separated prices) (timeStamp : ℤ)
    {entries : List OrderBookEntry} (hentries : ∀ entry ∈ entries, entry.price ∈ prices)
    (h : Represents prices levels cache) :
    Represents prices (entries.foldl Levels.set levels)
      (entries.foldl (fun cache entry => cache.updateCache timeStamp entry) cache) := by
  induction entries generalizing levels cache with
  | nil => exact h
  | cons entry rest ih =>
    exact ih (fun e he => hentries e (by simp [he]))
      (h.updateCache hprices timeStamp (hentries entry (by simp)))

end OrderBookCache

/-- The snapshot lists exactly the levels that offer something, in any order. -/
structure OrderBookState.Lists (snapshot : OrderBookState) (levels : Levels) : Prop where
  asks : ∀ entry, entry ∈ snapshot.asks ↔
    entry.side = .ask ∧ 0 < entry.volume ∧ entry.volume = levels (.ask, entry.price)
  bids : ∀ entry, entry ∈ snapshot.bids ↔
    entry.side = .bid ∧ 0 < entry.volume ∧ entry.volume = levels (.bid, entry.price)

/-- A cache made from a snapshot stands for the levels that the snapshot lists. -/
theorem OrderBookCache.fromSnapshot_represents {prices : Set ℚ} {levels : Levels}
    {snapshot : OrderBookState} (hprices : Separated prices) (h : snapshot.Lists levels)
    (hlevels : ∀ s price, levels (s, price) ≠ 0 → price ∈ prices) :
    Represents prices levels (fromSnapshot snapshot) := by
  have hside : ∀ s, ∃ elements, (fromSnapshot snapshot).side s = OrderedSet.ofList s.compare elements
      ∧ ∀ entry, entry ∈ elements ↔
        entry.side = s ∧ 0 < entry.volume ∧ entry.volume = levels (s, entry.price) := by
    intro s
    cases s with
    | ask => exact ⟨snapshot.asks, rfl, h.asks⟩
    | bid => exact ⟨snapshot.bids, rfl, h.bids⟩
  have hpriced : ∀ s entry,
      entry.side = s ∧ 0 < entry.volume ∧ entry.volume = levels (s, entry.price) →
        entry ∈ pricedIn prices := by
    intro s entry hentry
    obtain ⟨-, hpositive, hvolume⟩ := hentry
    exact hlevels s entry.price (hvolume ▸ hpositive.ne')
  refine ⟨?_, ?_⟩
  · intro s
    obtain ⟨elements, heq, hmem⟩ := hside s
    rw [heq]
    exact OrderedSet.sorted_ofList (s.orderedBy hprices) fun x hx => hpriced s x ((hmem x).mp hx)
  · intro s entry
    obtain ⟨elements, heq, hmem⟩ := hside s
    rw [heq, OrderedSet.mem_ofList (s.orderedBy hprices)
      (fun x hx => hpriced s x ((hmem x).mp hx)), hmem]
    -- a level has one entry
    intro x hx y hy hrank
    have hprice := (s.rank_eq_iff x y).mp hrank
    obtain ⟨hxs, -, hxv⟩ := (hmem x).mp hx
    obtain ⟨hys, -, hyv⟩ := (hmem y).mp hy
    exact OrderBookEntry.eq_of_level hprice (by rw [hxv, hyv, hprice]) (hxs.trans hys.symm)

end MarketBlocks
