import MarketBlocks.Library.UnorderedMap
import Mathlib.Algebra.BigOperators.Group.List.Basic

/-!
# Adding up maps

Amounts are added up under their keys, one map after the other. The order in which a map is walked does
not matter. A total is the sum of the amounts that the maps hold under its key, and the keys of the
totals are those of the maps.
-/

namespace MarketBlocks.Library

namespace UnorderedMap

variable {κ υ : Type} [DecidableEq κ] [AddCommMonoid υ]

/-- The amount under a key. -/
def amount (m : UnorderedMap κ υ) (k : κ) : υ := (m.lookup k).getD 0

/-- `map[key] += value`. -/
def addEntry (m : UnorderedMap κ υ) (k : κ) (v : υ) : UnorderedMap κ υ := m.insert k (m.amount k + v)

/-- An entry adds to its key. -/
theorem amount_addEntry (m : UnorderedMap κ υ) (k k' : κ) (v : υ) :
    (m.addEntry k v).amount k' = m.amount k' + if k' = k then v else 0 := by
  rw [amount, addEntry, lookup_insert_eq]
  split
  · next heq => rw [heq, Option.getD_some]
  · rw [add_zero, amount]

/-- The key of an added entry is there afterwards. -/
theorem mem_addEntry {m : UnorderedMap κ υ} {k k' : κ} {v : υ} :
    k' ∈ m.addEntry k v ↔ k' = k ∨ k' ∈ m := Finmap.mem_insert

/-- The order of two entries makes no difference. -/
private theorem addEntry_comm (m : UnorderedMap κ υ) (k k' : κ) (v v' : υ) :
    (m.addEntry k v).addEntry k' v' = (m.addEntry k' v').addEntry k v := by
  apply Finmap.ext_lookup
  intro key
  by_cases heq : k = k'
  · subst heq
    have hnext (v v' : υ) : (m.addEntry k v).addEntry k v' = m.insert k (m.amount k + (v + v')) := by
      rw [addEntry, amount_addEntry, if_pos rfl, add_assoc]
      exact Finmap.insert_insert _
    rw [hnext, hnext, add_comm v v']
  · have hnext {k k' : κ} (hne : k ≠ k') (v v' : υ) : (m.addEntry k v).addEntry k' v' =
        (m.insert k (m.amount k + v)).insert k' (m.amount k' + v') := by
      have hamount : (m.addEntry k v).amount k' = m.amount k' := by
        rw [amount_addEntry, if_neg hne.symm, add_zero]
      rw [addEntry, hamount]
      rfl
    rw [hnext heq, hnext (Ne.symm heq), Finmap.insert_insert_of_ne _ heq]

/-- Add all entries of a map. -/
def addEntries (total m : UnorderedMap κ υ) : UnorderedMap κ υ :=
  Finmap.foldl addEntry (fun d k v k' v' => addEntry_comm d k k' v v') total m

/-- What a list of entries adds. -/
theorem foldl_addEntry (entries : List (Sigma fun _ : κ => υ)) (total : UnorderedMap κ υ) (k : κ) :
    let totals := entries.foldl (fun m entry => m.addEntry entry.1 entry.2) total
    (k ∈ totals ↔ k ∈ total ∨ k ∈ entries.map Sigma.fst) ∧
      totals.amount k = total.amount k +
        ((entries.filter (k = ·.1)).map Sigma.snd).sum := by
  induction entries generalizing total with
  | nil => simp
  | cons entry rest ih =>
    obtain ⟨hmem, hamount⟩ := ih (total.addEntry entry.1 entry.2)
    constructor
    · rw [List.foldl_cons, hmem, mem_addEntry, List.map_cons, List.mem_cons]
      tauto
    · rw [List.foldl_cons, hamount, amount_addEntry, List.filter_cons]
      by_cases heq : k = entry.1
      · simp [heq, add_assoc]
      · simp [heq]

/-- At most one entry of a map is under a key. -/
theorem sum_filter_eq_dlookup {entries : List (Sigma fun _ : κ => υ)} (hnodup : entries.NodupKeys)
    (k : κ) :
    ((entries.filter (k = ·.1)).map Sigma.snd).sum = (entries.dlookup k).getD 0 := by
  induction entries with
  | nil => rfl
  | cons entry rest ih =>
    obtain ⟨key, value⟩ := entry
    obtain ⟨hnew, hrest⟩ := List.nodupKeys_cons.mp hnodup
    by_cases heq : k = key
    · subst heq
      have hnone : rest.filter (k = ·.1) = [] := by
        rw [List.filter_eq_nil_iff]
        intro entry hentry hkey
        have hkeys : entry.1 ∈ rest.keys := List.mem_map_of_mem hentry
        rw [← of_decide_eq_true hkey] at hkeys
        exact hnew hkeys
      rw [List.filter_cons_of_pos (by simp), hnone, List.dlookup_cons_eq]
      simp
    · rw [List.filter_cons_of_neg (by simpa using heq), ih hrest,
        List.dlookup_cons_ne rest ⟨key, value⟩ heq]

/-- All entries of a map add to their keys. -/
theorem addEntries_spec (total m : UnorderedMap κ υ) (k : κ) :
    (k ∈ total.addEntries m ↔ k ∈ total ∨ k ∈ m) ∧
      (total.addEntries m).amount k = total.amount k + m.amount k := by
  induction m using Finmap.induction_on with
  | H entries =>
    obtain ⟨hmem, hamount⟩ := foldl_addEntry entries.entries total k
    rw [sum_filter_eq_dlookup entries.nodupKeys] at hamount
    exact ⟨hmem, hamount⟩

end UnorderedMap

end MarketBlocks.Library
