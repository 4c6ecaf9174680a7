import Mathlib.Data.Rat.Defs

/-!
# Market data

Candles, trades and order books as the exchanges report them. Times are seconds of
`time_t`, prices and volumes the exact rational values of the doubles.
-/

namespace MarketBlocks

/-- A candle; the default one carries the time stamp `-1`. -/
structure OhlcvData where
  timeStamp : ℤ := -1
  «open» : ℚ := 0
  high : ℚ := 0
  low : ℚ := 0
  close : ℚ := 0
  volume : ℚ := 0
  deriving DecidableEq, Repr, Inhabited

/-- The last trade of a pair; the default one has price zero, which stands for no trade. -/
structure TradeUpdate where
  timeStamp : ℤ := 0
  price : ℚ := 0
  volume : ℚ := 0
  deriving DecidableEq, Repr

instance : Inhabited TradeUpdate := ⟨{}⟩

/-- `order_book_side`. -/
inductive OrderBookSide where
  | ask
  | bid
  deriving DecidableEq, Repr

/-- `order_book_entry`. -/
structure OrderBookEntry where
  price : ℚ
  volume : ℚ
  side : OrderBookSide
  deriving DecidableEq, Repr

/-- Entries of one side with one price and volume are the same. -/
theorem OrderBookEntry.eq_of_level {entry other : OrderBookEntry} (hprice : entry.price = other.price)
    (hvolume : entry.volume = other.volume) (hside : entry.side = other.side) : entry = other := by
  cases entry
  cases other
  cases hprice
  cases hvolume
  cases hside
  rfl

/-- `order_book_state`. -/
structure OrderBookState where
  timeStamp : ℤ
  asks : List OrderBookEntry
  bids : List OrderBookEntry
  deriving DecidableEq, Repr

end MarketBlocks
