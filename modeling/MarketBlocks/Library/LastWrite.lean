import Mathlib.Data.List.Basic

/-!
# Last writes

A map that only ever overwrites is determined by the last write to each key. The history of a
map is the list of its writes, oldest first, each of which carries its key.
-/

namespace MarketBlocks.Library

variable {α β : Type*} [DecidableEq β] (key : α → β)

/-- The last of the writes to `k`. -/
def lastWrite (writes : List α) (k : β) : Option α :=
  writes.reverse.find? fun w => key w = k

/-- Nothing was written. -/
@[simp] theorem lastWrite_nil (k : β) : lastWrite key [] k = none := rfl

/-- A further write replaces what was written to its key and nothing else. -/
theorem lastWrite_concat (writes : List α) (w : α) (k : β) :
    lastWrite key (writes ++ [w]) k = if key w = k then some w else lastWrite key writes k := by
  unfold lastWrite
  rw [List.reverse_append, List.reverse_singleton, List.singleton_append, List.find?_cons]
  by_cases hkey : key w = k
  · simp [hkey]
  · simp [hkey]

/-- Behind a history, later writes come first. -/
theorem lastWrite_append (writes later : List α) (k : β) :
    lastWrite key (writes ++ later) k = (lastWrite key later k).or (lastWrite key writes k) := by
  rw [lastWrite, List.reverse_append, List.find?_append]
  rfl

variable {key}

/-- Nothing was written to a key that no write has. -/
theorem lastWrite_eq_none_iff {writes : List α} {k : β} :
    lastWrite key writes k = none ↔ ∀ w ∈ writes, key w ≠ k := by
  simp [lastWrite]

/-- A collection with one element for each key finds exactly its elements. -/
theorem find?_eq_some_iff_of_pairwise {set : List α} (hset : set.Pairwise fun x y => key x ≠ key y)
    {k : β} {x : α} : set.find? (fun y => key y = k) = some x ↔ x ∈ set ∧ key x = k := by
  induction set with
  | nil => simp
  | cons y ys ih =>
    obtain ⟨hhead, htail⟩ := List.pairwise_cons.mp hset
    rw [List.find?_cons]
    by_cases hkey : key y = k
    · have hbehind : ∀ z ∈ ys, key z ≠ k := fun z hz => hkey ▸ (hhead z hz).symm
      simp only [hkey, decide_true, Option.some.injEq, List.mem_cons]
      constructor
      · intro heq
        exact ⟨.inl heq.symm, heq ▸ hkey⟩
      · intro h
        obtain ⟨heq | hmem, hx⟩ := h
        · exact heq.symm
        · exact absurd hx (hbehind x hmem)
    · simp only [hkey, decide_false, ih htail, List.mem_cons]
      constructor
      · intro h
        exact ⟨.inr h.1, h.2⟩
      · intro h
        obtain ⟨heq | hmem, hx⟩ := h
        · exact absurd (heq ▸ hx) hkey
        · exact ⟨hmem, hx⟩

end MarketBlocks.Library
