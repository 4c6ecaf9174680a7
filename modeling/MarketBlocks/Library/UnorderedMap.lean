import Mathlib.Data.Finmap

/-!
# Unordered maps

A hash map without its iteration order is Mathlib's `Finmap`: two maps are equal exactly
when every lookup agrees. This file adds the two reading conventions of such maps that
`Finmap` leaves out, a read with a default and an insertion that keeps an existing entry, and a
change of all values.
-/

namespace MarketBlocks.Library

/-- A finite map whose iteration order is unspecified. -/
abbrev UnorderedMap (κ υ : Type) := Finmap fun _ : κ => υ

namespace UnorderedMap

variable {κ υ ω : Type} [DecidableEq κ]

/-- One lookup after an insertion, with both cases of the key comparison. -/
theorem lookup_insert_eq (m : UnorderedMap κ υ) (k k' : κ) (v : υ) :
    (m.insert k v).lookup k' = if k' = k then some v else m.lookup k' := by
  by_cases h : k' = k
  · subst h
    rw [if_pos rfl, Finmap.lookup_insert]
  · rw [if_neg h, Finmap.lookup_insert_of_ne _ h]

/-- One lookup after a removal, with both cases of the key comparison. -/
theorem lookup_erase_eq (m : UnorderedMap κ υ) (k k' : κ) :
    (m.erase k).lookup k' = if k' = k then none else m.lookup k' := by
  by_cases h : k' = k
  · subst h
    rw [if_pos rfl, Finmap.lookup_erase]
  · rw [if_neg h, Finmap.lookup_erase_ne h]

/-- Removing a key forgets what was last stored at it. -/
theorem erase_insert_self (m : UnorderedMap κ υ) (k : κ) (v : υ) :
    (m.insert k v).erase k = m.erase k := by
  apply Finmap.ext_lookup
  intro k'
  rw [lookup_erase_eq, lookup_erase_eq, lookup_insert_eq]
  split <;> rfl

/-- Read an entry, with a default value for an absent key. -/
def findOrDefault [Inhabited υ] (m : UnorderedMap κ υ) (k : κ) : υ :=
  (m.lookup k).getD default

/-- The empty map has defaults only. -/
@[simp] theorem findOrDefault_empty [Inhabited υ] (k : κ) :
    findOrDefault (∅ : UnorderedMap κ υ) k = default := by
  simp [findOrDefault]

/-- A read after an insertion returns the new value exactly at its key. -/
theorem findOrDefault_insert [Inhabited υ] (m : UnorderedMap κ υ) (k k' : κ) (v : υ) :
    findOrDefault (m.insert k v) k' = if k' = k then v else findOrDefault m k' := by
  rw [findOrDefault, lookup_insert_eq]
  split <;> rfl

/-- Insert an entry unless the key has one already. -/
def emplace (m : UnorderedMap κ υ) (k : κ) (v : υ) : UnorderedMap κ υ :=
  if k ∈ m then m else m.insert k v

/-- At a fresh key the guarded insertion is the plain one. -/
theorem emplace_of_notMem {m : UnorderedMap κ υ} {k : κ} (h : k ∉ m) (v : υ) :
    emplace m k v = m.insert k v := if_neg h

/-- Overwriting an entry makes a guarded insertion before it irrelevant. -/
theorem insert_emplace (m : UnorderedMap κ υ) (k : κ) (v w : υ) :
    Finmap.insert k w (emplace m k v) = m.insert k w := by
  unfold emplace
  split
  · rfl
  · exact Finmap.insert_insert _

/-- The guarded insertion leaves the old value in place and otherwise stores the new one. -/
theorem findOrDefault_emplace_self [Inhabited υ] (m : UnorderedMap κ υ) (k : κ) (v : υ) :
    findOrDefault (emplace m k v) k = (m.lookup k).getD v := by
  by_cases h : k ∈ m
  · obtain ⟨w, hw⟩ := Finmap.mem_iff.mp h
    simp [emplace, h, findOrDefault, hw]
  · simp [emplace, h, findOrDefault, Finmap.lookup_eq_none.mpr h]

/-- One lookup after a guarded insertion: an old entry goes first. -/
theorem lookup_emplace (m : UnorderedMap κ υ) (k k' : κ) (v : υ) :
    (emplace m k v).lookup k' = (m.lookup k').or (if k' = k then some v else none) := by
  unfold emplace
  split
  · next hmem =>
    obtain ⟨w, hw⟩ := Finmap.mem_iff.mp hmem
    split
    · next heq => rw [heq, hw, Option.some_or]
    · rw [Option.or_none]
  · next hnew =>
    rw [lookup_insert_eq]
    split
    · next heq => rw [heq, Finmap.lookup_eq_none.mpr hnew, Option.none_or]
    · rw [Option.or_none]

/-- Of entries that are inserted one after another without overwriting, the first one of a key
stays. -/
theorem lookup_foldl_emplace_map {α : Type*} (key : α → κ) (value : α → υ) (items : List α)
    (m : UnorderedMap κ υ) (k : κ) :
    (items.foldl (fun m item => emplace m (key item) (value item)) m).lookup k =
      (m.lookup k).or ((items.find? fun item => k = key item).map value) := by
  induction items generalizing m with
  | nil => rw [List.foldl_nil, List.find?_nil, Option.map_none, Option.or_none]
  | cons item rest ih =>
    rw [List.foldl_cons, ih, lookup_emplace, Option.or_assoc, List.find?_cons]
    congr 1
    by_cases heq : k = key item
    · simp [heq]
    · simp [heq]

/-- Values that are inserted under keys of their own. -/
theorem lookup_foldl_emplace (key : υ → κ) (values : List υ) (m : UnorderedMap κ υ) (k : κ) :
    (values.foldl (fun m v => emplace m (key v) v) m).lookup k =
      (m.lookup k).or (values.find? fun v => k = key v) := by
  rw [lookup_foldl_emplace_map key fun v => v, Option.map_id']

/-- Change the value of every entry. -/
def mapEntries (f : κ → υ → ω) (m : UnorderedMap κ υ) : UnorderedMap κ ω where
  entries := m.entries.map fun entry => ⟨entry.1, f entry.1 entry.2⟩
  nodupKeys := by
    rw [← Multiset.nodup_keys, Multiset.keys, Multiset.map_map]
    exact Multiset.nodup_keys.mpr m.nodupKeys

/-- A changed entry is where the old one was. -/
theorem lookup_mapEntries (f : κ → υ → ω) (m : UnorderedMap κ υ) (k : κ) :
    (mapEntries f m).lookup k = (m.lookup k).map (f k) := by
  ext w
  rw [Finmap.lookup_eq_some_iff, Option.map_eq_some_iff]
  simp only [mapEntries, Multiset.mem_map, Finmap.lookup_eq_some_iff]
  constructor
  · rintro ⟨⟨key, value⟩, hmem, heq⟩
    cases heq
    exact ⟨value, hmem, rfl⟩
  · rintro ⟨value, hmem, rfl⟩
    exact ⟨⟨k, value⟩, hmem, rfl⟩
end UnorderedMap

end MarketBlocks.Library
