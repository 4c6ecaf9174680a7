import MarketBlocks.Exchanges.BinanceResults
import MarketBlocks.Library.Extremes
import MarketBlocks.Library.WeightedSum

/-!
# The confirmed price of an order on Binance

The price of a confirmation is the mean of the fill prices, weighted with their quantities. An order
that rests was not filled, and the sum of no quantities is the divisor then. `calculate_asset_price`
answers such a division with zero; `read_add_order_confirm` does not ask it.
-/

namespace MarketBlocks.Binance

open Library

/-- What `read_add_order_confirm` divides by. -/
def filledQty (fills : List (ℚ × ℚ)) : ℚ := (fills.map (·.2)).sum

/-- What it divides. -/
def filledCost (fills : List (ℚ × ℚ)) : ℚ := (fills.map fun fill => fill.1 * fill.2).sum

/-- The answer to an order, with the prices and quantities of its fills. -/
structure AnswersOrder (c : Conversions) (json : Json) (fills : List (ℚ × ℚ)) : Prop where
  noCode : json.hasMember "code" = false
  fills_eq : (json.element "fills" >>= fun fillsElement => fillsElement.values.mapM (readFill c)) = .ok fills
  price_nonneg : ∀ fill ∈ fills, 0 ≤ fill.1
  qty_nonneg : ∀ fill ∈ fills, 0 ≤ fill.2

/-- The division is by no zero, and the confirmed price of a filled order is the weighted mean, between
the lowest and the highest price of a fill. -/
structure ConfirmsAverage (c : Conversions) (json : Json) (fills : List (ℚ × ℚ)) : Prop where
  divides : filledQty fills ≠ 0
  average : ∀ confirmation, readAddOrderConfirm c (.ok json) = .ok (.ok confirmation) →
    0 < filledQty fills →
      confirmation.price = filledCost fills / filledQty fills ∧ Spans (fills.map (·.1)) confirmation.price

variable {c : Conversions} {json : Json} {fills : List (ℚ × ℚ)}

/-- Every confirmation has the quotient for its price. -/
theorem AnswersOrder.price_eq (h : AnswersOrder c json fills) {confirmation : OrderConfirmation}
    (hconfirm : readAddOrderConfirm c (.ok json) = .ok (.ok confirmation)) :
    confirmation.price = filledCost fills / filledQty fills := by
  have hread := (readResult_return h.noCode).mp hconfirm
  obtain ⟨fillsElement, hfillsElement, hread⟩ := exists_of_bind_eq_ok hread
  obtain ⟨values, hvalues, hread⟩ := exists_of_bind_eq_ok hread
  have hfills := h.fills_eq
  rw [hfillsElement] at hfills
  -- the fills that the reader goes through are those of the answer
  have hsame : values = fills := Except.ok.inj (hvalues.symm.trans hfills)
  subst hsame
  obtain ⟨orderId, -, hread⟩ := exists_of_bind_eq_ok hread
  obtain ⟨status, -, hread⟩ := exists_of_bind_eq_ok hread
  obtain ⟨origQty, -, hread⟩ := exists_of_bind_eq_ok hread
  obtain ⟨executedQty, -, hread⟩ := exists_of_bind_eq_ok hread
  cases hread
  rfl

/-- The mean lies between the lowest and the highest price. -/
theorem spans_average (hqty : ∀ fill ∈ fills, 0 ≤ fill.2) (hpos : 0 < filledQty fills) :
    Spans (fills.map (·.1)) (filledCost fills / filledQty fills) := by
  obtain ⟨low, hlow, hlowle⟩ := exists_value_le_mean Prod.fst hqty hpos
  obtain ⟨high, hhigh, hhighle⟩ := exists_mean_le_value Prod.fst hqty hpos
  constructor
  · exact ⟨low.1, List.mem_map_of_mem hlow, hlowle⟩
  · exact ⟨high.1, List.mem_map_of_mem hhigh, hhighle⟩

/-- The confirmed price is an average exactly when something was filled. -/
theorem confirmsAverage_iff (h : AnswersOrder c json fills) :
    ConfirmsAverage c json fills ↔ ∃ fill ∈ fills, 0 < fill.2 := by
  have hpos : 0 < filledQty fills ↔ ∃ fill ∈ fills, 0 < fill.2 := sum_weight_pos_iff h.qty_nonneg
  rw [← hpos]
  constructor
  · intro hconfirms
    have hnonneg : 0 ≤ filledQty fills := by
      apply List.sum_nonneg
      intro qty hmem
      obtain ⟨fill, hfill, rfl⟩ := List.mem_map.mp hmem
      exact h.qty_nonneg fill hfill
    exact lt_of_le_of_ne hnonneg hconfirms.divides.symm
  · intro hfilled
    constructor
    · exact hfilled.ne'
    · intro confirmation hconfirm _
      have hprice := h.price_eq hconfirm
      exact ⟨hprice, hprice ▸ spans_average h.qty_nonneg hfilled⟩

/-- The answer to a limit order of three units, with what was filled of it. -/
def limitOrderAnswer (executedQty : String) (fills : List Json) : Json :=
  .object [("executedQty", .string executedQty), ("fills", .array fills), ("orderId", .integer 28),
    ("origQty", .string "3"), ("status", .string "NEW")]

/-- An order that rests has no fills. -/
theorem resting_not_confirmsAverage :
    AnswersOrder .ofDigits (limitOrderAnswer "0" []) [] ∧
      ¬ConfirmsAverage .ofDigits (limitOrderAnswer "0" []) [] :=
  ⟨⟨rfl, rfl, by simp, by simp⟩, fun h => h.divides rfl⟩

/-- Two fills of one order. -/
def twoFills : List Json :=
  [.object [("price", .string "5"), ("qty", .string "1")],
    .object [("price", .string "8"), ("qty", .string "2")]]

/-- One unit at the price 5 and two at the price 8. -/
theorem confirmsAverage_two_fills :
    ConfirmsAverage .ofDigits (limitOrderAnswer "3" twoFills) [(5, 1), (8, 2)] :=
  (confirmsAverage_iff ⟨by decide, by decide +kernel, by decide, by decide⟩).mpr
    ⟨(5, 1), by decide, by decide⟩

end MarketBlocks.Binance
