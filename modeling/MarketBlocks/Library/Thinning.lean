import Mathlib.Data.List.Pairwise
import Mathlib.Data.List.Perm.Basic
import Mathlib.Order.Lattice

/-!
# Thinning a list

A thinning walks over a list and keeps an entry when its key is far enough from the key that was kept
last. Being far enough is a relation of an earlier key and a later one that is strict and goes up
with the later key, such as lying at least a fixed positive distance above.

Thinning a list in any order and thinning it in sorted order are two different things. They agree
exactly when each entry that the sorted thinning keeps stands before all entries with a larger key.
-/

namespace MarketBlocks.Library

variable {α κ : Type*}

/-- The last key does not forbid the next one. -/
def Admits (far : κ → κ → Prop) (last : Option κ) (next : κ) : Prop := ∀ kept ∈ last, far kept next

instance {far : κ → κ → Prop} [DecidableRel far] (last : Option κ) (next : κ) :
    Decidable (Admits far last next) :=
  match last with
  | none => .isTrue fun _ h => nomatch h
  | some kept => decidable_of_iff (far kept next) (by simp [Admits])

/-- Nothing is kept yet. -/
theorem admits_none {far : κ → κ → Prop} (next : κ) : Admits far none next := fun _ h => nomatch h

/-- What is far lies above, and what lies above it is far as well. -/
structure Far [LinearOrder κ] (far : κ → κ → Prop) : Prop where
  lt : ∀ {a b}, far a b → a < b
  mono : ∀ {a b c}, far a b → b ≤ c → far a c

/-- What comes later is admitted as well. -/
theorem Admits.mono [LinearOrder κ] {far : κ → κ → Prop} (hfar : Far far) {last : Option κ}
    {a b : κ} (h : Admits far last a) (hle : a ≤ b) :
    Admits far last b := fun kept hkept => hfar.mono (h kept hkept) hle

/-- The entries that are kept after `last`. -/
def thin (key : α → κ) (far : κ → κ → Prop) [DecidableRel far] : Option κ → List α → List α
  | _, [] => []
  | last, entry :: rest =>
    if Admits far last (key entry) then entry :: thin key far (some (key entry)) rest
    else thin key far last rest

section Thin

variable {key : α → κ} {far : κ → κ → Prop} [DecidableRel far] {last : Option κ} {entry : α}
  {entries rest : List α}

/-- An entry that is admitted is kept. -/
theorem thin_cons_of_admits (h : Admits far last (key entry)) :
    thin key far last (entry :: rest) = entry :: thin key far (some (key entry)) rest := if_pos h

/-- Any other entry is left out. -/
theorem thin_cons_of_not_admits (h : ¬Admits far last (key entry)) :
    thin key far last (entry :: rest) = thin key far last rest := if_neg h

/-- Without a last key the first entry is kept. -/
theorem thin_none_cons :
    thin key far none (entry :: rest) = entry :: thin key far (some (key entry)) rest :=
  thin_cons_of_admits (admits_none _)

/-- A thinning keeps the order of its list. -/
theorem thin_sublist (last : Option κ) (entries : List α) :
    (thin key far last entries).Sublist entries := by
  induction entries generalizing last with
  | nil => exact List.Sublist.refl _
  | cons entry rest ih =>
    by_cases hadmits : Admits far last (key entry)
    · rw [thin_cons_of_admits hadmits]
      exact (ih _).cons_cons entry
    · rw [thin_cons_of_not_admits hadmits]
      exact (ih last).cons entry

/-- What a thinning keeps of the front of a list does not depend on the rest. -/
theorem exists_thin_append (last : Option κ) (front rest : List α) :
    ∃ between, thin key far last (front ++ rest) =
      thin key far last front ++ thin key far between rest := by
  induction front generalizing last with
  | nil => exact ⟨last, rfl⟩
  | cons entry front ih =>
    by_cases hadmits : Admits far last (key entry)
    · obtain ⟨between, heq⟩ := ih (some (key entry))
      refine ⟨between, ?_⟩
      rw [List.cons_append, thin_cons_of_admits hadmits, thin_cons_of_admits hadmits, heq]
      rfl
    · obtain ⟨between, heq⟩ := ih last
      refine ⟨between, ?_⟩
      rw [List.cons_append, thin_cons_of_not_admits hadmits, thin_cons_of_not_admits hadmits, heq]

variable [LinearOrder κ]

/-- With an entry that is far above `bound` something above `bound` is kept. -/
theorem exists_kept_above (hfar : Far far) (hback : ∀ {a b c}, a ≤ b → far b c → far a c) {bound : κ}
    (hlast : ∀ kept ∈ last, kept ≤ bound) (hentry : entry ∈ entries) (habove : far bound (key entry)) :
    ∃ kept ∈ thin key far last entries, bound < key kept := by
  induction entries generalizing last with
  | nil => cases hentry
  | cons first rest ih =>
    by_cases hadmits : Admits far last (key first)
    · rw [thin_cons_of_admits hadmits]
      rcases lt_or_ge bound (key first) with hlt | hle
      · exact ⟨first, List.mem_cons_self, hlt⟩
      · have hmem : entry ∈ rest := by
          rcases List.mem_cons.mp hentry with rfl | hmem
          · exact absurd (hfar.lt habove) (not_lt.mpr hle)
          · exact hmem
        obtain ⟨kept, hkept, hlt⟩ := ih (fun _ h => Option.some.inj h ▸ hle) hmem
        exact ⟨kept, List.mem_cons_of_mem _ hkept, hlt⟩
    · rw [thin_cons_of_not_admits hadmits]
      rcases List.mem_cons.mp hentry with rfl | hmem
      · exact absurd (fun kept hkept => hback (hlast kept hkept) habove) hadmits
      · exact ih hlast hmem

/-- Every entry that is kept is admitted by the key before. -/
theorem admits_of_mem_thin (hfar : Far far) (h : entry ∈ thin key far last entries) :
    Admits far last (key entry) := by
  induction entries generalizing last with
  | nil => cases h
  | cons first rest ih =>
    by_cases hadmits : Admits far last (key first)
    · rw [thin_cons_of_admits hadmits] at h
      rcases List.mem_cons.mp h with rfl | hmem
      · exact hadmits
      · exact hadmits.mono hfar (hfar.lt (ih hmem _ rfl)).le
    · rw [thin_cons_of_not_admits hadmits] at h
      exact ih h

/-- Each entry that is kept is far from all those kept before. -/
theorem pairwise_thin (hfar : Far far) (last : Option κ) (entries : List α) :
    (thin key far last entries).Pairwise fun x y => far (key x) (key y) := by
  induction entries generalizing last with
  | nil => exact List.Pairwise.nil
  | cons first rest ih =>
    by_cases hadmits : Admits far last (key first)
    · rw [thin_cons_of_admits hadmits]
      exact List.pairwise_cons.mpr ⟨fun y hy => admits_of_mem_thin hfar hy _ rfl, ih _⟩
    · rw [thin_cons_of_not_admits hadmits]
      exact ih last

/-- An entry that is kept lies above all entries of the list before it. -/
theorem pairwise_of_mem_thin (hfar : Far far) (last : Option κ)
    (hdistinct : entries.Pairwise fun x y => key x ≠ key y) :
    entries.Pairwise fun x y => y ∈ thin key far last entries → key x < key y := by
  induction entries generalizing last with
  | nil => exact List.Pairwise.nil
  | cons first rest ih =>
    obtain ⟨hfirst, hrest⟩ := List.pairwise_cons.mp hdistinct
    by_cases hadmits : Admits far last (key first)
    · rw [thin_cons_of_admits hadmits]
      have hmem {y : α} (hy : y ∈ rest) (hkept : y ∈ first :: thin key far (some (key first)) rest) :
          y ∈ thin key far (some (key first)) rest := by
        rcases List.mem_cons.mp hkept with rfl | hmem
        · exact absurd rfl (hfirst y hy)
        · exact hmem
      apply List.pairwise_cons.mpr
      constructor
      · intro y hy hkept
        exact hfar.lt (admits_of_mem_thin hfar (hmem hy hkept) _ rfl)
      · refine List.Pairwise.imp_of_mem ?_ (ih (some (key first)) hrest)
        intro x y _ hy hlt hkept
        exact hlt (hmem hy hkept)
    · rw [thin_cons_of_not_admits hadmits]
      apply List.pairwise_cons.mpr
      constructor
      · intro y _ hkept
        by_contra hle
        exact hadmits ((admits_of_mem_thin hfar hkept).mono hfar (not_lt.mp hle))
      · exact ih last hrest

/-! ## The thinning of a sorted list -/

/-- In a sorted list every entry that is admitted at first has an entry that is kept at or below it,
and not far. -/
theorem exists_kept (hfar : Far far) (hsorted : entries.Pairwise (key · ≤ key ·))
    (hentry : entry ∈ entries) (hadmits : Admits far last (key entry)) :
    ∃ kept ∈ thin key far last entries, key kept ≤ key entry ∧ ¬far (key kept) (key entry) := by
  induction entries generalizing last with
  | nil => cases hentry
  | cons first rest ih =>
    obtain ⟨hfirst, hrest⟩ := List.pairwise_cons.mp hsorted
    by_cases hkept : Admits far last (key first)
    · rw [thin_cons_of_admits hkept]
      by_cases hnear : far (key first) (key entry)
      · have hmem : entry ∈ rest := by
          rcases List.mem_cons.mp hentry with rfl | hmem
          · exact absurd (hfar.lt hnear) (lt_irrefl _)
          · exact hmem
        obtain ⟨kept, hmem', hle, hnot⟩ := ih hrest hmem fun _ h => Option.some.inj h ▸ hnear
        exact ⟨kept, List.mem_cons_of_mem _ hmem', hle, hnot⟩
      · have hle : key first ≤ key entry := by
          rcases List.mem_cons.mp hentry with rfl | hmem
          · exact le_rfl
          · exact hfirst entry hmem
        exact ⟨first, List.mem_cons_self, hle, hnear⟩
    · rw [thin_cons_of_not_admits hkept]
      rcases List.mem_cons.mp hentry with rfl | hmem
      · exact absurd hadmits hkept
      · exact ih hrest hmem hadmits

omit [DecidableRel far] in
/-- The first entry that is kept is the first one of the list, when some entry that is kept is not above
that one. -/
private theorem head_eq_first (hfar : Far far) {head near first : α} {others rest : List α}
    (hkept : (head :: others).Pairwise fun x y => far (key x) (key y))
    (hsubset : head :: others ⊆ first :: rest)
    (hfirst : ∀ y ∈ rest, y ∈ head :: others → key first < key y)
    (hnear : near ∈ head :: others) (hle : key near ≤ key first) : head = first := by
  have hlow : key head ≤ key first := by
    rcases List.mem_cons.mp hnear with rfl | hmem
    · exact hle
    · exact (hfar.lt ((List.pairwise_cons.mp hkept).1 near hmem)).le.trans hle
  rcases List.mem_cons.mp (hsubset List.mem_cons_self) with heq | hmem
  · exact heq
  · exact absurd (hfirst head hmem List.mem_cons_self) (not_lt.mpr hlow)

/-- What makes a list the thinning of another one: its entries are far from each other and cover all
that the last key admits, and each of them comes before everything above it. -/
theorem thin_eq_of_covers (hfar : Far far) {kept : List α} (hsubset : kept ⊆ entries)
    (hadmits : ∀ entry ∈ kept, Admits far last (key entry))
    (hkept : kept.Pairwise fun x y => far (key x) (key y))
    (hcovers : ∀ entry ∈ entries, Admits far last (key entry) →
      ∃ near ∈ kept, key near ≤ key entry ∧ ¬far (key near) (key entry))
    (hbefore : entries.Pairwise fun x y => y ∈ kept → key x < key y) :
    thin key far last entries = kept := by
  induction entries generalizing last kept with
  | nil => exact (List.eq_nil_of_subset_nil hsubset).symm
  | cons first rest ih =>
    obtain ⟨hfirst, hrest⟩ := List.pairwise_cons.mp hbefore
    by_cases hfirstAdmits : Admits far last (key first)
    · rw [thin_cons_of_admits hfirstAdmits]
      obtain ⟨near, hnear, hle, -⟩ := hcovers first List.mem_cons_self hfirstAdmits
      cases kept with
      | nil => cases hnear
      | cons head others =>
        obtain ⟨hhead, hothers⟩ := List.pairwise_cons.mp hkept
        have heq : head = first := head_eq_first hfar hkept hsubset hfirst hnear hle
        subst heq
        congr 1
        apply ih
        · intro entry hentry
          rcases List.mem_cons.mp (hsubset (List.mem_cons_of_mem _ hentry)) with rfl | hmem
          · exact absurd (hfar.lt (hhead entry hentry)) (lt_irrefl _)
          · exact hmem
        · exact fun entry hentry _ h => Option.some.inj h ▸ hhead entry hentry
        · exact hothers
        · intro entry hentry hfarEntry
          have hbehind : far (key head) (key entry) := hfarEntry _ rfl
          obtain ⟨near', hnear', hle', hnot⟩ := hcovers entry (List.mem_cons_of_mem _ hentry)
            (hfirstAdmits.mono hfar (hfar.lt hbehind).le)
          rcases List.mem_cons.mp hnear' with rfl | hmem
          · exact absurd hbehind hnot
          · exact ⟨near', hmem, hle', hnot⟩
        · exact hrest.imp fun hlt hmem => hlt (List.mem_cons_of_mem _ hmem)
    · rw [thin_cons_of_not_admits hfirstAdmits]
      apply ih
      · intro entry hentry
        rcases List.mem_cons.mp (hsubset hentry) with rfl | hmem
        · exact absurd (hadmits entry hentry) hfirstAdmits
        · exact hmem
      · exact hadmits
      · exact hkept
      · exact fun entry hentry => hcovers entry (List.mem_cons_of_mem _ hentry)
      · exact hrest

/-- Thinning a list is thinning its sorted form exactly when each entry that is kept of the sorted
list comes before everything above it. -/
theorem thin_eq_thin_sorted_iff (hfar : Far far) {sorted : List α} (hperm : sorted.Perm entries)
    (hsorted : sorted.Pairwise (key · ≤ key ·))
    (hdistinct : entries.Pairwise fun x y => key x ≠ key y) :
    thin key far none entries = thin key far none sorted ↔
      entries.Pairwise fun x y => y ∈ thin key far none sorted → key x < key y := by
  constructor
  · intro heq
    rw [← heq]
    exact pairwise_of_mem_thin hfar none hdistinct
  · intro hbefore
    apply thin_eq_of_covers hfar
    · exact fun entry hentry => hperm.subset ((thin_sublist none sorted).subset hentry)
    · exact fun entry hentry => admits_of_mem_thin hfar hentry
    · exact pairwise_thin hfar none sorted
    · exact fun entry hentry hadmits => exists_kept hfar hsorted (hperm.mem_iff.mpr hentry) hadmits
    · exact hbefore

end Thin

end MarketBlocks.Library
