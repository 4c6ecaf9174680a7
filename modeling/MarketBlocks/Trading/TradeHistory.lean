import MarketBlocks.Library.Extremes
import MarketBlocks.Library.TimeSeries
import MarketBlocks.Trading.Market
import Mathlib.Algebra.BigOperators.Group.List.Basic
import Mathlib.Algebra.Order.Field.Rat
import Mathlib.Algebra.Order.Ring.Unbundled.Rat
import Mathlib.Data.List.Induction

/-!
# Histories of trades

Trades in the order of their arrival, seen from a moment: what came before it, at it and after
it. Times have a resolution of one second, so that several trades may share a time.
-/

namespace MarketBlocks

open Library

/-- The trades before a moment. -/
def tradesBefore (moment : ℤ) (trades : List TradeUpdate) : List TradeUpdate :=
  trades.filter fun trade => trade.timeStamp < moment

/-- The trades at a moment. -/
def tradesAt (moment : ℤ) (trades : List TradeUpdate) : List TradeUpdate :=
  trades.filter fun trade => trade.timeStamp = moment

/-- The trades at a moment or after it. -/
def tradesSince (moment : ℤ) (trades : List TradeUpdate) : List TradeUpdate :=
  trades.filter fun trade => moment ≤ trade.timeStamp

/-- The trades up to a moment. -/
def tradesUpTo (moment : ℤ) (trades : List TradeUpdate) : List TradeUpdate :=
  trades.filter fun trade => trade.timeStamp ≤ moment

/-- The trades after a moment. -/
def tradesAfter (moment : ℤ) (trades : List TradeUpdate) : List TradeUpdate :=
  trades.filter fun trade => moment < trade.timeStamp

/-- The prices of some trades, in their order. -/
def prices (trades : List TradeUpdate) : List ℚ := trades.map TradeUpdate.price

/-- The volume of all trades. -/
def totalVolume (trades : List TradeUpdate) : ℚ := (trades.map TradeUpdate.volume).sum

/-- The price of the last trade, or else the given one. -/
def lastPrice (before : ℚ) (trades : List TradeUpdate) : ℚ :=
  (trades.getLast?.map TradeUpdate.price).getD before

/-- The time of the last trade, or else the given one. -/
def lastTradeTime (before : ℤ) (trades : List TradeUpdate) : ℤ :=
  (trades.getLast?.map TradeUpdate.timeStamp).getD before

/-- Trades in the order of their times, none before `first`. -/
structure Chronological (first : ℤ) (trades : List TradeUpdate) : Prop where
  le_time : ∀ trade ∈ trades, first ≤ trade.timeStamp
  sorted : trades.Pairwise fun earlier later => earlier.timeStamp ≤ later.timeStamp

variable {first moment : ℤ} {trades : List TradeUpdate} {trade : TradeUpdate}

/-- The last trade has the last price. -/
@[simp] theorem lastPrice_concat (before : ℚ) (trades : List TradeUpdate) (trade : TradeUpdate) :
    lastPrice before (trades ++ [trade]) = trade.price := by simp [lastPrice]

/-- The last trade has the last time. -/
@[simp] theorem lastTradeTime_concat (before : ℤ) (trades : List TradeUpdate) (trade : TradeUpdate) :
    lastTradeTime before (trades ++ [trade]) = trade.timeStamp := by simp [lastTradeTime]

/-- Without trades it is the price from before. -/
theorem lastPrice_eq_getLast? (before : ℚ) (trades : List TradeUpdate) :
    lastPrice before trades = (prices trades).getLast?.getD before := by
  rw [lastPrice, prices, List.getLast?_map]

/-- More trades carry it on. -/
theorem lastPrice_append (before : ℚ) (trades more : List TradeUpdate) :
    lastPrice before (trades ++ more) = lastPrice (lastPrice before trades) more := by
  induction more using List.reverseRecOn with
  | nil => rw [List.append_nil]; rfl
  | append_singleton more trade _ => rw [← List.append_assoc, lastPrice_concat, lastPrice_concat]

/-- The last trade of a chronological list has the greatest time. -/
theorem Chronological.le_lastTradeTime (h : Chronological first trades) (hmem : trade ∈ trades) :
    trade.timeStamp ≤ lastTradeTime first trades := by
  induction trades using List.reverseRecOn with
  | nil => simp at hmem
  | append_singleton before last _ =>
    rw [lastTradeTime_concat]
    rcases List.mem_append.mp hmem with hbefore | hlast
    · exact (List.pairwise_append.mp h.sorted).2.2 trade hbefore last (by simp)
    · rw [List.mem_singleton.mp hlast]

/-- No trade comes before the first time. -/
theorem Chronological.first_le_lastTradeTime (h : Chronological first trades) :
    first ≤ lastTradeTime first trades := by
  induction trades using List.reverseRecOn with
  | nil => exact le_rfl
  | append_singleton before last _ =>
    rw [lastTradeTime_concat]
    exact h.le_time last (by simp)

/-- A chronological list without its last trade, which is not before any other. -/
theorem Chronological.of_concat (h : Chronological first (trades ++ [trade])) :
    Chronological first trades ∧ lastTradeTime first trades ≤ trade.timeStamp := by
  have hsorted := List.pairwise_append.mp h.sorted
  refine ⟨⟨fun t ht => h.le_time t (by simp [ht]), hsorted.1⟩, ?_⟩
  cases trades using List.reverseRecOn with
  | nil => exact h.le_time trade (by simp)
  | append_singleton before last =>
    rw [lastTradeTime_concat]
    exact hsorted.2.2 last (by simp) trade (by simp)

/-- A later trade. -/
theorem Chronological.concat (h : Chronological first trades) (hfirst : first ≤ trade.timeStamp)
    (hlast : ∀ earlier ∈ trades, earlier.timeStamp ≤ trade.timeStamp) :
    Chronological first (trades ++ [trade]) where
  le_time := by
    intro t hmem
    rcases List.mem_append.mp hmem with hold | hnew
    · exact h.le_time t hold
    · exact List.mem_singleton.mp hnew ▸ hfirst
  sorted := List.pairwise_append.mpr ⟨h.sorted, List.pairwise_singleton _ _, fun t ht t' ht' =>
    List.mem_singleton.mp ht' ▸ hlast t ht⟩

/-- The trades before a moment come first. -/
theorem Chronological.before_append_since (h : Chronological first trades) (moment : ℤ) :
    tradesBefore moment trades ++ tradesSince moment trades = trades :=
  filter_lt_append_filter_le h.sorted moment

/-- The trades at a moment come before the later ones. -/
theorem Chronological.at_append_after (h : Chronological first trades) (moment : ℤ) :
    tradesAt moment trades ++ tradesAfter moment trades = tradesSince moment trades :=
  filter_eq_append_filter_lt h.sorted moment

/-- Up to a moment there are those before it and those at it. -/
theorem Chronological.before_append_at (h : Chronological first trades) (moment : ℤ) :
    tradesBefore moment trades ++ tradesAt moment trades = tradesUpTo moment trades := by
  have hupTo : Chronological first (tradesUpTo moment trades) :=
    ⟨fun trade hmem => h.le_time trade (List.mem_filter.mp hmem).1, h.sorted.filter _⟩
  rw [← hupTo.before_append_since moment]
  simp only [tradesBefore, tradesAt, tradesSince, tradesUpTo, List.filter_filter]
  congr 1
  · apply List.filter_congr
    intro trade _
    rw [← Bool.decide_and, decide_eq_decide]
    omega
  · apply List.filter_congr
    intro trade _
    rw [← Bool.decide_and, decide_eq_decide]
    omega

/-- The trades after a moment come behind the ones up to it. -/
theorem Chronological.upTo_append_after (h : Chronological first trades) (moment : ℤ) :
    tradesUpTo moment trades ++ tradesAfter moment trades = trades := by
  rw [← h.before_append_at, List.append_assoc, h.at_append_after, h.before_append_since]

/-- Trades of which the first ones all lie up to a moment. -/
theorem trades_append_of_le {old : List TradeUpdate} (more : List TradeUpdate)
    (h : ∀ trade ∈ old, trade.timeStamp ≤ moment) :
    tradesUpTo moment (old ++ more) = old ++ tradesUpTo moment more ∧
      tradesAfter moment (old ++ more) = tradesAfter moment more := by
  unfold tradesUpTo tradesAfter
  rw [List.filter_append, List.filter_append]
  constructor
  · rw [List.filter_eq_self.mpr fun trade hmem => by simpa using h trade hmem]
  · rw [List.filter_eq_nil_iff.mpr fun trade hmem => by simpa using h trade hmem, List.nil_append]

/-- Trades that all lie before a moment. -/
theorem trades_of_forall_lt (h : ∀ trade ∈ trades, trade.timeStamp < moment) :
    tradesBefore moment trades = trades ∧ tradesAt moment trades = [] ∧
      tradesSince moment trades = [] := by
  refine ⟨List.filter_eq_self.mpr ?_, List.filter_eq_nil_iff.mpr ?_,
    List.filter_eq_nil_iff.mpr ?_⟩
  · intro trade hmem
    simpa using h trade hmem
  · intro trade hmem
    simpa using (h trade hmem).ne
  · intro trade hmem
    simpa using h trade hmem

/-- A further trade that is not before the moment is kept. -/
theorem trades_concat (trades : List TradeUpdate) (h : moment ≤ trade.timeStamp) :
    tradesBefore moment (trades ++ [trade]) = tradesBefore moment trades ∧
      tradesAt moment (trades ++ [trade]) =
        tradesAt moment trades ++ (if trade.timeStamp = moment then [trade] else []) ∧
      tradesSince moment (trades ++ [trade]) = tradesSince moment trades ++ [trade] := by
  simp only [tradesBefore, tradesAt, tradesSince, List.filter_append, List.filter_singleton]
  refine ⟨?_, ?_, ?_⟩
  · simp [not_lt.mpr h]
  · simp
  · simp [h]

end MarketBlocks
