import Mathlib.Algebra.BigOperators.Group.List.Basic
import Mathlib.Data.List.TakeWhile
import Mathlib.Order.Lattice
import Mathlib.Order.Monotone.Basic

/-!
# Lists with keys

A series is read at a moment by the number of its entries before that moment. `countBelow`
counts the leading entries with a smaller key; on a sorted series these are all of them.
-/

namespace MarketBlocks.Library

variable {α κ : Type*} [LinearOrder κ] (key : α → κ)

/-- The number of leading entries whose key is below the bound. -/
def countBelow (bound : κ) (entries : List α) : ℕ := (entries.takeWhile (key · < bound)).length

section CountBelow

variable {key} {bound bound' : κ} {entries : List α} {index : ℕ} {entry : α}

/-- A first entry below the bound counts. -/
theorem countBelow_cons_of_lt (h : key entry < bound) :
    countBelow key bound (entry :: entries) = countBelow key bound entries + 1 := by
  simp [countBelow, h]

/-- From the first one that is not below nothing counts. -/
theorem countBelow_cons_of_le (h : bound ≤ key entry) :
    countBelow key bound (entry :: entries) = 0 := by
  simp [countBelow, not_lt.mpr h]

/-- No more entries count than there are. -/
theorem countBelow_le_length : countBelow key bound entries ≤ entries.length :=
  (List.takeWhile_sublist _).length_le

/-- The counted entries are below the bound. -/
theorem key_lt_of_lt_countBelow (hentry : entries[index]? = some entry)
    (hindex : index < countBelow key bound entries) : key entry < bound := by
  induction entries generalizing index with
  | nil => simp at hentry
  | cons head rest ih =>
    rcases lt_or_ge (key head) bound with hhead | hhead
    · cases index with
      | zero =>
        rw [List.getElem?_cons_zero, Option.some.injEq] at hentry
        exact hentry ▸ hhead
      | succ index =>
        rw [countBelow_cons_of_lt hhead] at hindex
        exact ih (by simpa using hentry) (by omega)
    · rw [countBelow_cons_of_le hhead] at hindex
      omega

/-- The first entry that is not counted is not below the bound. -/
theorem le_key_of_countBelow (hentry : entries[countBelow key bound entries]? = some entry) :
    bound ≤ key entry := by
  induction entries with
  | nil => simp at hentry
  | cons head rest ih =>
    rcases lt_or_ge (key head) bound with hhead | hhead
    · rw [countBelow_cons_of_lt hhead] at hentry
      exact ih (by simpa using hentry)
    · rw [countBelow_cons_of_le hhead, List.getElem?_cons_zero, Option.some.injEq] at hentry
      exact hentry ▸ hhead

/-- A later bound counts more entries. -/
theorem countBelow_mono (h : bound ≤ bound') :
    countBelow key bound entries ≤ countBelow key bound' entries := by
  induction entries with
  | nil => exact le_rfl
  | cons head rest ih =>
    rcases lt_or_ge (key head) bound with hhead | hhead
    · rw [countBelow_cons_of_lt hhead, countBelow_cons_of_lt (hhead.trans_le h)]
      omega
    · rw [countBelow_cons_of_le hhead]
      omega

/-- An entry that is not below the bound is not counted. -/
theorem countBelow_le_of_le (hentry : entries[index]? = some entry) (hkey : bound ≤ key entry) :
    countBelow key bound entries ≤ index := by
  by_contra hlt
  exact absurd (key_lt_of_lt_countBelow hentry (not_le.mp hlt)) (not_lt.mpr hkey)

/-- On a sorted series no entry behind the counted ones is below the bound. -/
theorem le_key_of_countBelow_le (hsorted : entries.Pairwise (key · ≤ key ·))
    (hentry : entries[index]? = some entry) (hindex : countBelow key bound entries ≤ index) :
    bound ≤ key entry := by
  induction entries generalizing index with
  | nil => simp at hentry
  | cons head rest ih =>
    obtain ⟨hfirst, hrest⟩ := List.pairwise_cons.mp hsorted
    rcases lt_or_ge (key head) bound with hhead | hhead
    · rw [countBelow_cons_of_lt hhead] at hindex
      cases index with
      | zero => omega
      | succ index => exact ih hrest (by simpa using hentry) (by omega)
    · cases index with
      | zero =>
        rw [List.getElem?_cons_zero, Option.some.injEq] at hentry
        exact hentry ▸ hhead
      | succ index =>
        have hmem : entry ∈ rest := List.mem_of_getElem? (by simpa using hentry)
        exact hhead.trans (hfirst entry hmem)

/-- Entries below the bound are counted in front of whatever follows them. -/
theorem countBelow_append (h : ∀ entry ∈ entries, key entry < bound) (more : List α) :
    countBelow key bound (entries ++ more) = entries.length + countBelow key bound more := by
  rw [countBelow, List.takeWhile_append_of_pos fun entry hentry => by simpa using h entry hentry,
    List.length_append]
  rfl

/-- Entries at the bound or after it are not counted. -/
theorem countBelow_append_of_le {more : List α} (h : ∀ entry ∈ more, bound ≤ key entry) :
    countBelow key bound (entries ++ more) = countBelow key bound entries := by
  induction entries with
  | nil =>
    cases more with
    | nil => rfl
    | cons head rest => exact countBelow_cons_of_le (h head List.mem_cons_self)
  | cons head rest ih =>
    rcases lt_or_ge (key head) bound with hhead | hhead
    · rw [List.cons_append, countBelow_cons_of_lt hhead, countBelow_cons_of_lt hhead, ih]
    · rw [List.cons_append, countBelow_cons_of_le hhead, countBelow_cons_of_le hhead]

/-- On a sorted series the counted entries are all entries below the bound. -/
theorem take_countBelow (hsorted : entries.Pairwise (key · ≤ key ·)) :
    entries.take (countBelow key bound entries) = entries.filter (key · < bound) := by
  induction entries with
  | nil => rfl
  | cons head rest ih =>
    obtain ⟨hfirst, hrest⟩ := List.pairwise_cons.mp hsorted
    rcases lt_or_ge (key head) bound with hhead | hhead
    · rw [countBelow_cons_of_lt hhead, List.take_succ_cons, ih hrest,
        List.filter_cons_of_pos (by simpa using hhead)]
    · have hnone : rest.filter (key · < bound) = [] := by
        rw [List.filter_eq_nil_iff]
        intro entry hentry
        simpa using hhead.trans (hfirst entry hentry)
      rw [countBelow_cons_of_le hhead, List.filter_cons_of_neg (by simpa using hhead), hnone]
      rfl

end CountBelow

section Split

variable {key} {bound : κ} {entries : List α}

/-- A list whose first entries satisfy a predicate and whose others do not is split by it. -/
theorem filter_append_filter_not {p : α → Bool}
    (hfirst : entries.Pairwise fun x y => p y = true → p x = true) :
    entries.filter p ++ entries.filter (fun x => !p x) = entries := by
  induction entries with
  | nil => rfl
  | cons head rest ih =>
    obtain ⟨hhead, hrest⟩ := List.pairwise_cons.mp hfirst
    by_cases hp : p head = true
    · rw [List.filter_cons_of_pos hp, List.filter_cons_of_neg (by simp [hp]), List.cons_append,
        ih hrest]
    · have hnone : ∀ x ∈ rest, ¬p x = true := fun x hx hpx => hp (hhead x hx hpx)
      have hall : ∀ x ∈ rest, (!p x) = true := fun x hx => by simpa using hnone x hx
      rw [List.filter_cons_of_neg hp, List.filter_cons_of_pos (by simpa using hp),
        List.filter_eq_nil_iff.mpr hnone, List.filter_eq_self.mpr hall, List.nil_append]

/-- A sorted series is what is before a moment followed by what is not. -/
theorem filter_lt_append_filter_le (hsorted : entries.Pairwise (key · ≤ key ·)) (bound : κ) :
    entries.filter (key · < bound) ++ entries.filter (bound ≤ key ·) = entries := by
  have hsplit := filter_append_filter_not (p := fun x => decide (key x < bound))
    (hsorted.imp fun hle hlt => by simpa using hle.trans_lt (by simpa using hlt))
  have hnot : (fun x => !decide (key x < bound)) = fun x => decide (bound ≤ key x) := by
    funext x
    rw [← decide_not, decide_eq_decide, not_lt]
  rwa [hnot] at hsplit

/-- What is not before a moment is what is at it followed by what is after it. -/
theorem filter_eq_append_filter_lt (hsorted : entries.Pairwise (key · ≤ key ·)) (bound : κ) :
    entries.filter (key · = bound) ++ entries.filter (bound < key ·) =
      entries.filter (bound ≤ key ·) := by
  have hsplit := filter_append_filter_not (p := fun x => decide (key x ≤ bound))
    ((hsorted.filter (bound ≤ key ·)).imp fun hle hlt => by
      simpa using hle.trans (by simpa using hlt))
  rw [List.filter_filter, List.filter_filter] at hsplit
  rw [← hsplit]
  congr 1
  · apply List.filter_congr
    intro x _
    rw [← Bool.decide_and, decide_eq_decide, le_antisymm_iff]
  · apply List.filter_congr
    intro x _
    rw [← decide_not, ← Bool.decide_and, decide_eq_decide, not_le]
    exact ⟨fun h => ⟨h, h.le⟩, And.left⟩

end Split

section Slices

variable {key} {bound : ℕ → κ} {entries : List α} {count : ℕ}

/-- The entries from one moment up to another. -/
def slice (key : α → κ) (entries : List α) (start stop : κ) : List α :=
  entries.filter fun entry => start ≤ key entry ∧ key entry < stop

/-- A slice holds the entries between its ends. -/
theorem mem_slice {start stop : κ} {entry : α} :
    entry ∈ slice key entries start stop ↔ entry ∈ entries ∧ start ≤ key entry ∧ key entry < stop := by
  rw [slice, List.mem_filter, decide_eq_true_eq]

/-- Falling moments cut what lies between the last and the first of them into disjoint slices. -/
theorem existsUnique_slice (hbound : Antitone bound) {moment : κ} (hlow : bound count ≤ moment)
    (hhigh : moment < bound 0) :
    ∃! i, i < count ∧ bound (i + 1) ≤ moment ∧ moment < bound i := by
  induction count with
  | zero => exact absurd hlow (not_le.mpr hhigh)
  | succ count ih =>
    rcases le_or_gt (bound count) moment with hle | hlt
    · obtain ⟨i, ⟨hi, hslice⟩, hunique⟩ := ih hle
      refine ⟨i, ⟨by omega, hslice⟩, ?_⟩
      rintro j ⟨hj, hslice'⟩
      have hne : j ≠ count := by
        rintro rfl
        exact absurd hle (not_le.mpr hslice'.2)
      exact hunique j ⟨by omega, hslice'⟩
    · refine ⟨count, ⟨by omega, hlow, hlt⟩, ?_⟩
      rintro j ⟨hj, hslice⟩
      by_contra hne
      have hle : bound count ≤ bound (j + 1) := hbound (by omega)
      exact absurd (hle.trans hslice.1) (not_le.mpr hlt)

/-- A weight of a slice is the sum of its weights on both sides of a moment in between. -/
theorem sum_slice_split {M : Type*} [AddCommMonoid M] (weight : α → M) {start middle stop : κ}
    (hstart : start ≤ middle) (hstop : middle ≤ stop) :
    ((slice key entries start middle).map weight).sum + ((slice key entries middle stop).map weight).sum =
      ((slice key entries start stop).map weight).sum := by
  have hperm := List.filter_append_perm (fun entry => decide (key entry < middle))
    (slice key entries start stop)
  rw [← (hperm.map weight).sum_eq, List.map_append, List.sum_append]
  unfold slice
  rw [List.filter_filter, List.filter_filter]
  congr 3
  · apply List.filter_congr
    intro entry _
    rw [← Bool.decide_and, decide_eq_decide]
    exact ⟨fun h => ⟨h.2, h.1, h.2.trans_le hstop⟩, fun h => ⟨h.2.1, h.1⟩⟩
  · apply List.filter_congr
    intro entry _
    rw [← decide_not, ← Bool.decide_and, decide_eq_decide, not_lt]
    exact ⟨fun h => ⟨h.1, hstart.trans h.1, h.2⟩, fun h => ⟨h.1, h.2.2⟩⟩

/-- The weights of the slices between falling moments add up to the weight of the whole. -/
theorem sum_slices {M : Type*} [AddCommMonoid M] (weight : α → M) (hbound : Antitone bound)
    (count : ℕ) :
    ((List.range count).map fun i =>
        ((slice key entries (bound (i + 1)) (bound i)).map weight).sum).sum =
      ((slice key entries (bound count) (bound 0)).map weight).sum := by
  induction count with
  | zero =>
    have hnone : slice key entries (bound 0) (bound 0) = [] := by
      rw [slice, List.filter_eq_nil_iff]
      intro entry _
      simp
    rw [hnone]
    rfl
  | succ count ih =>
    rw [List.range_succ, List.map_append, List.sum_append, ih, List.map_singleton, List.sum_singleton,
      add_comm]
    exact sum_slice_split weight (hbound (Nat.le_succ count)) (hbound (Nat.zero_le count))

end Slices

end MarketBlocks.Library
