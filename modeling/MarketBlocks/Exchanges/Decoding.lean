import MarketBlocks.Common.JsonDemands
import MarketBlocks.Exchanges.Results

/-!
# Decoding answers

A reader decodes the documents for which it returns a success or a failure. Exceptions become
failures, so what a document demands is that nothing is read that is not there.
-/

namespace MarketBlocks

open Library Json

/-- A reader decodes exactly the documents that are safe by a demand. -/
def Decodes {α : Type} (reader : Answer → Except Fault (Result α)) (d : Demand Json) : Prop :=
  ∀ json, (∃ result, reader (.ok json) = .ok result) ↔ d.Safe json

/-- Space that is reserved. -/
def reserves (count : Json → ℤ) : Demand Json where
  Safe := fun _ => True
  Met := fun json => 0 ≤ count json

/-- An entry of a vector. -/
def longerThan {σ α : Type} (values : List α) (index : ℕ) : Demand σ where
  Safe := fun _ => index < values.length
  Met := fun _ => index < values.length

/-- A result that may be an exception. -/
def recognises {α : Type} (result : Except Fault α) : Demand Json where
  Safe := fun _ => True
  Met := fun _ => ∃ value, result = .ok value

/-- A conversion that is always defined. -/
theorem makes_recognises {α : Type} {result : Except Fault α} (h : result ≠ .error .undefined) :
    Makes .undefined (fun _ => result) (recognises result) where
  safe := fun _ => iff_of_true h trivial
  met := fun _ => Iff.rfl

/-- The block of a reader catches everything but what is undefined. -/
theorem exists_catching_eq_ok_iff {α : Type} {block : Except Fault (Result α)} :
    (∃ result, catching block = .ok result) ↔ block ≠ .error .undefined := by
  cases block with
  | ok result => exact iff_of_true ⟨result, rfl⟩ (fun h => by cases h)
  | error fault => cases fault <;> simp [catching]

/-- A reader decodes what a block between `try` and `catch` demands. -/
theorem decodes_of_makes {α : Type} {reader : Answer → Except Fault (Result α)}
    {block : Json → Except Fault (Result α)} {d : Demand Json} (h : Makes .undefined block d)
    (hreader : ∀ json, reader (.ok json) = catching (block json)) : Decodes reader d := by
  intro json
  rw [hreader, exists_catching_eq_ok_iff]
  exact h.safe json

/-- Space can be reserved for a number that is not negative. -/
theorem makes_reserve (count : Json → ℤ) :
    Makes .undefined (fun json => reserve (count json)) (reserves count) where
  safe := fun json => by
    refine iff_of_true (fun h => ?_) trivial
    rw [reserve] at h
    split at h <;> cases h
  met := fun json => by
    change _ ↔ 0 ≤ count json
    rw [reserve]
    split
    · exact iff_of_false (fun ⟨_, h⟩ => by cases h) (by omega)
    · exact iff_of_true ⟨(), rfl⟩ (by omega)

/-- Looking up an entry of a vector demands that it is that long. -/
theorem makes_at? {σ α : Type} (values : List α) (index : ℕ) :
    Makes .undefined (fun _ : σ => at? values index) (longerThan values index) where
  safe := fun _ => by
    change _ ↔ index < values.length
    rw [at?]
    cases hvalue : values[index]? with
    | none => exact iff_of_false (fun h => h rfl) (by have := List.getElem?_eq_none_iff.mp hvalue; omega)
    | some value =>
      exact iff_of_true (fun h => by cases h) (List.getElem?_eq_some_iff.mp hvalue).1
  met := fun _ => by
    change _ ↔ index < values.length
    rw [at?]
    cases hvalue : values[index]? with
    | none =>
      exact iff_of_false (fun ⟨_, h⟩ => by cases h)
        (by have := List.getElem?_eq_none_iff.mp hvalue; omega)
    | some value => exact iff_of_true ⟨value, rfl⟩ (List.getElem?_eq_some_iff.mp hvalue).1

end MarketBlocks
