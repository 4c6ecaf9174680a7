import Mathlib.Algebra.Order.BigOperators.Group.Finset
import Mathlib.Algebra.BigOperators.Group.Finset.Basic
import Mathlib.Data.List.Basic

/-!
# Lists written by several sources

A list is an interleaving of parts when every entry can be given a source so that the entries of
each source, in their order, are its part. Appending entries of one source extends its part. Two
families of parts of one list are equally long as soon as one is nowhere longer than the other.
-/

namespace MarketBlocks.Library

variable {α ι : Type*} [DecidableEq ι]

/-- Every entry of `whole` comes from one source, and the entries of each source are its part. -/
def Interleaving (whole : List α) (parts : ι → List α) : Prop :=
  ∃ rows : List (ι × α), rows.map Prod.snd = whole ∧
    ∀ i, (rows.filter (·.1 = i)).map Prod.snd = parts i

variable {whole : List α} {parts parts' : ι → List α}

/-- Nothing was written by anybody. -/
theorem interleaving_nil : Interleaving ([] : List α) fun _ : ι => [] := ⟨[], rfl, fun _ => rfl⟩

/-- What one source appends extends its part. -/
theorem Interleaving.append (h : Interleaving whole parts) (i : ι) (more : List α) :
    Interleaving (whole ++ more) (Function.update parts i (parts i ++ more)) := by
  obtain ⟨rows, rfl, hparts⟩ := h
  refine ⟨rows ++ more.map (i, ·), ?_, ?_⟩
  · rw [List.map_append, List.map_map]
    congr 1
    exact List.map_id more
  · intro j
    rw [List.filter_append, List.map_append, hparts j]
    by_cases hj : j = i
    · subst hj
      rw [Function.update_self, List.filter_eq_self.mpr]
      · rw [List.map_map]
        congr 1
        exact List.map_id more
      · intro row hrow
        obtain ⟨entry, _, rfl⟩ := List.mem_map.mp hrow
        simp
    · rw [Function.update_of_ne hj, List.filter_eq_nil_iff.mpr, List.map_nil, List.append_nil]
      intro row hrow
      obtain ⟨entry, _, rfl⟩ := List.mem_map.mp hrow
      simpa using Ne.symm hj

/-- The parts are as long together as the whole, over any set of sources that is large enough. -/
theorem Interleaving.exists_sum_length (h : Interleaving whole parts) :
    ∃ sources : Finset ι, ∀ larger, sources ⊆ larger →
      ∑ i ∈ larger, (parts i).length = whole.length := by
  obtain ⟨rows, rfl, hparts⟩ := h
  refine ⟨(rows.map Prod.fst).toFinset, fun larger hlarger => ?_⟩
  have hcount (i : ι) : (parts i).length = (rows.map Prod.fst).count i := by
    rw [← hparts i, List.length_map, ← List.countP_eq_length_filter, List.count, List.countP_map]
    apply List.countP_congr
    intro row _
    simp
  have hmem : ∀ i ∈ (rows.map Prod.fst : Multiset ι), i ∈ larger := by
    intro i hi
    exact hlarger (List.mem_toFinset.mpr hi)
  have hcard := Multiset.sum_count_eq_card hmem
  rw [Multiset.coe_card, List.length_map] at hcard
  rw [List.length_map, ← hcard]
  apply Finset.sum_congr rfl
  intro i _
  rw [hcount, Multiset.coe_count]

/-- When the parts of one list are nowhere longer than other parts of it, they are as long. -/
theorem Interleaving.length_eq (h : Interleaving whole parts) (h' : Interleaving whole parts')
    (hle : ∀ i, (parts i).length ≤ (parts' i).length) (i : ι) :
    (parts i).length = (parts' i).length := by
  obtain ⟨sources, hsum⟩ := h.exists_sum_length
  obtain ⟨sources', hsum'⟩ := h'.exists_sum_length
  have hall : ∑ j ∈ insert i (sources ∪ sources'), (parts j).length =
      ∑ j ∈ insert i (sources ∪ sources'), (parts' j).length := by
    rw [hsum _ (Finset.subset_union_left.trans (Finset.subset_insert _ _)),
      hsum' _ (Finset.subset_union_right.trans (Finset.subset_insert _ _))]
  exact (Finset.sum_eq_sum_iff_of_le fun j _ => hle j).mp hall i (Finset.mem_insert_self _ _)

/-- What only one source has written is its part. -/
theorem interleaving_single_iff {i : ι} (hother : ∀ j, j ≠ i → parts j = []) :
    Interleaving whole parts ↔ whole = parts i := by
  constructor
  · rintro ⟨rows, rfl, hparts⟩
    have hall : ∀ row ∈ rows, row.1 = i := by
      intro row hrow
      by_contra hne
      have hmem : row.2 ∈ parts row.1 := by
        rw [← hparts row.1]
        exact List.mem_map_of_mem (List.mem_filter.mpr ⟨hrow, by simp⟩)
      rw [hother row.1 hne] at hmem
      cases hmem
    rw [← hparts i, List.filter_eq_self.mpr]
    intro row hrow
    simpa using hall row hrow
  · intro heq
    have hwritten := (@interleaving_nil α ι _).append i whole
    have hparts : Function.update (fun _ : ι => ([] : List α)) i ([] ++ whole) = parts := by
      funext j
      by_cases hj : j = i
      · subst hj
        rw [Function.update_self, List.nil_append, heq]
      · rw [Function.update_of_ne hj, hother j hj]
    rwa [hparts, List.nil_append] at hwritten

end MarketBlocks.Library
