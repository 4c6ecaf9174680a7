import Mathlib.Data.List.Basic
import Mathlib.Order.Lattice

/-!
# Ordered sets

A set ordered by a comparator is the list of its elements, in order. Two elements are
equivalent when neither is less than the other, and a set holds one of each kind. The
comparator need not be an order everywhere: the lemmas ask only that on a domain, which the
elements stay in, it compares the keys of a linear order.
-/

namespace MarketBlocks.Library

namespace OrderedSet

variable {α β : Type*}

/-- Add an element, unless an equivalent one is there. -/
def insert (lt : α → α → Bool) (x : α) : List α → List α
  | [] => [x]
  | y :: ys =>
    if lt y x then y :: insert lt x ys
    else if lt x y then x :: y :: ys
    else y :: ys

/-- Remove the element equivalent to `x`, if there is one. -/
def erase (lt : α → α → Bool) (x : α) : List α → List α
  | [] => []
  | y :: ys =>
    if lt y x then y :: erase lt x ys
    else if lt x y then y :: ys
    else ys

/-- The set of a range of elements, added one after the other. -/
def ofList (lt : α → α → Bool) (elements : List α) : List α :=
  elements.foldl (fun set x => insert lt x set) []

section

variable [LinearOrder β]

/-- On `domain` the comparator is the strict order of the keys. -/
def OrderedBy (lt : α → α → Bool) (key : α → β) (domain : Set α) : Prop :=
  ∀ x ∈ domain, ∀ y ∈ domain, lt x y = true ↔ key x < key y

/-- The elements lie in `domain`, by increasing key. -/
structure Sorted (key : α → β) (domain : Set α) (set : List α) : Prop where
  mem_domain : ∀ x ∈ set, x ∈ domain
  increasing : set.Pairwise fun x y => key x < key y

variable {lt : α → α → Bool} {key : α → β} {domain : Set α} {x z : α} {set : List α}

/-- The empty set is sorted. -/
theorem sorted_nil : Sorted key domain [] := ⟨by simp, List.Pairwise.nil⟩

/-- The first element is below the others. -/
theorem sorted_cons {y : α} {ys : List α} :
    Sorted key domain (y :: ys) ↔
      y ∈ domain ∧ (∀ z ∈ ys, key y < key z) ∧ Sorted key domain ys := by
  constructor
  · intro h
    obtain ⟨hhead, htail⟩ := List.pairwise_cons.mp h.increasing
    exact ⟨h.mem_domain y (by simp), hhead, ⟨fun z hz => h.mem_domain z (by simp [hz]), htail⟩⟩
  · intro h
    obtain ⟨hy, hhead, htail⟩ := h
    refine ⟨?_, List.pairwise_cons.mpr ⟨hhead, htail.increasing⟩⟩
    intro z hz
    rcases List.mem_cons.mp hz with heq | htl
    · exact heq ▸ hy
    · exact htail.mem_domain z htl

/-- An insertion adds the element exactly when its key is new. -/
theorem mem_insert (hlt : OrderedBy lt key domain) (hset : Sorted key domain set)
    (hx : x ∈ domain) :
    z ∈ insert lt x set ↔ z ∈ set ∨ z = x ∧ ∀ y ∈ set, key y ≠ key x := by
  induction set with
  | nil => simp [insert]
  | cons y ys ih =>
    obtain ⟨hy, hhead, htail⟩ := sorted_cons.mp hset
    have hyx := hlt y hy x hx
    have hxy := hlt x hx y hy
    unfold insert
    rcases lt_trichotomy (key y) (key x) with hless | hsame | hmore
    · -- the new element goes behind `y`
      rw [if_pos (hyx.mpr hless), List.mem_cons, ih htail]
      simp [hless.ne, or_assoc]
    · -- the key is taken by `y`
      rw [if_neg (by simp [hyx, hsame]), if_neg (by simp [hxy, hsame])]
      simp [hsame]
    · -- every key of the set is greater
      rw [if_neg (by simp [hyx, hmore.le]), if_pos (hxy.mpr hmore)]
      have hnew : ∀ w ∈ ys, key w ≠ key x := fun w hw => (hmore.trans (hhead w hw)).ne'
      simp only [List.mem_cons]
      constructor
      · intro h
        rcases h with heq | hmem
        · exact .inr ⟨heq, by simpa using ⟨hmore.ne', hnew⟩⟩
        · exact .inl hmem
      · intro h
        rcases h with hmem | ⟨heq, -⟩
        · exact .inr hmem
        · exact .inl heq

/-- An insertion keeps the set sorted. -/
theorem Sorted.insert (hlt : OrderedBy lt key domain) (hset : Sorted key domain set)
    (hx : x ∈ domain) : Sorted key domain (insert lt x set) := by
  induction set with
  | nil => exact sorted_cons.mpr ⟨hx, by simp, sorted_nil⟩
  | cons y ys ih =>
    obtain ⟨hy, hhead, htail⟩ := sorted_cons.mp hset
    have hyx := hlt y hy x hx
    have hxy := hlt x hx y hy
    unfold OrderedSet.insert
    split
    · next hless =>
      refine sorted_cons.mpr ⟨hy, ?_, ih htail⟩
      intro w hw
      rcases (mem_insert hlt htail hx).mp hw with hmem | ⟨heq, -⟩
      · exact hhead w hmem
      · exact heq ▸ hyx.mp hless
    · split
      · next hless =>
        refine sorted_cons.mpr ⟨hx, ?_, hset⟩
        intro w hw
        rcases List.mem_cons.mp hw with heq | hmem
        · exact heq ▸ hxy.mp hless
        · exact (hxy.mp hless).trans (hhead w hmem)
      · exact hset

/-- A removal takes away exactly the element of the key. -/
theorem mem_erase (hlt : OrderedBy lt key domain) (hset : Sorted key domain set)
    (hx : x ∈ domain) : z ∈ erase lt x set ↔ z ∈ set ∧ key z ≠ key x := by
  induction set with
  | nil => simp [erase]
  | cons y ys ih =>
    obtain ⟨hy, hhead, htail⟩ := sorted_cons.mp hset
    have hyx := hlt y hy x hx
    have hxy := hlt x hx y hy
    have hbehind : key x ≤ key y → ∀ w ∈ ys, key w ≠ key x :=
      fun hle w hw => (hle.trans_lt (hhead w hw)).ne'
    unfold erase
    rcases lt_trichotomy (key y) (key x) with hless | hsame | hmore
    · rw [if_pos (hyx.mpr hless), List.mem_cons, List.mem_cons, ih htail]
      constructor
      · intro h
        rcases h with heq | ⟨hmem, hne⟩
        · exact ⟨.inl heq, heq ▸ hless.ne⟩
        · exact ⟨.inr hmem, hne⟩
      · intro h
        rcases h with ⟨heq | hmem, hne⟩
        · exact .inl heq
        · exact .inr ⟨hmem, hne⟩
    · rw [if_neg (by simp [hyx, hsame]), if_neg (by simp [hxy, hsame]), List.mem_cons]
      constructor
      · intro hmem
        exact ⟨.inr hmem, hbehind hsame.ge z hmem⟩
      · intro h
        rcases h with ⟨heq | hmem, hne⟩
        · exact absurd hsame (heq ▸ hne)
        · exact hmem
    · rw [if_neg (by simp [hyx, hmore.le]), if_pos (hxy.mpr hmore), List.mem_cons]
      constructor
      · intro h
        rcases h with heq | hmem
        · exact ⟨.inl heq, heq ▸ hmore.ne'⟩
        · exact ⟨.inr hmem, hbehind hmore.le z hmem⟩
      · exact And.left

/-- A removal keeps the order of what is left. -/
theorem erase_sublist (lt : α → α → Bool) (x : α) (set : List α) :
    (erase lt x set).Sublist set := by
  induction set with
  | nil => exact List.Sublist.refl _
  | cons y ys ih =>
    unfold erase
    split
    · exact ih.cons_cons y
    · split
      · exact List.Sublist.refl _
      · exact List.sublist_cons_self y ys

/-- Leaving elements out keeps a set sorted. -/
theorem Sorted.sublist {part : List α} (h : Sorted key domain set) (hpart : part.Sublist set) :
    Sorted key domain part :=
  ⟨fun x hx => h.mem_domain x (hpart.subset hx), h.increasing.sublist hpart⟩

/-- The set of a range is sorted. -/
theorem sorted_ofList (hlt : OrderedBy lt key domain) {elements : List α}
    (hmem : ∀ x ∈ elements, x ∈ domain) : Sorted key domain (ofList lt elements) := by
  suffices h : ∀ set, Sorted key domain set →
      Sorted key domain (elements.foldl (fun set x => OrderedSet.insert lt x set) set) from
    h [] sorted_nil
  induction elements with
  | nil => exact fun set hset => hset
  | cons x rest ih =>
    intro set hset
    exact ih (fun y hy => hmem y (by simp [hy])) _ (hset.insert hlt (hmem x (by simp)))

/-- An element behind all others is added at the end. -/
theorem insert_of_forall_lt (hlt : OrderedBy lt key domain) (hset : Sorted key domain set)
    (hx : x ∈ domain) (hbehind : ∀ y ∈ set, key y < key x) : insert lt x set = set ++ [x] := by
  induction set with
  | nil => rfl
  | cons y ys ih =>
    obtain ⟨hy, -, htail⟩ := sorted_cons.mp hset
    have hless : lt y x = true := (hlt y hy x hx).mpr (hbehind y (by simp))
    rw [insert, if_pos hless, ih htail fun z hz => hbehind z (by simp [hz])]
    rfl

/-- The set of the elements of a set, in order, is that set. -/
theorem ofList_of_sorted (hlt : OrderedBy lt key domain) (hset : Sorted key domain set) :
    ofList lt set = set := by
  suffices h : ∀ rest done, Sorted key domain (done ++ rest) →
      rest.foldl (fun set x => insert lt x set) done = done ++ rest from h set [] hset
  intro rest
  induction rest with
  | nil =>
    intro done _
    rw [List.foldl_nil, List.append_nil]
  | cons x rest ih =>
    intro done hdone
    have hbehind : ∀ y ∈ done, key y < key x := fun y hy =>
      (List.pairwise_append.mp hdone.increasing).2.2 y hy x (by simp)
    have hfront : Sorted key domain done := hdone.sublist (List.sublist_append_left done _)
    rw [List.foldl_cons, insert_of_forall_lt hlt hfront (hdone.mem_domain x (by simp)) hbehind,
      ih (done ++ [x]) (by simpa using hdone), List.append_assoc, List.singleton_append]

/-- When no two elements of a range share a key, its set holds all of them. -/
theorem mem_ofList (hlt : OrderedBy lt key domain) {elements : List α}
    (hmem : ∀ x ∈ elements, x ∈ domain)
    (hinj : ∀ x ∈ elements, ∀ y ∈ elements, key x = key y → x = y) :
    z ∈ ofList lt elements ↔ z ∈ elements := by
  suffices h : ∀ set, Sorted key domain set →
      (∀ x ∈ set, ∀ y ∈ elements, key x = key y → x = y) →
      (z ∈ elements.foldl (fun set x => insert lt x set) set ↔ z ∈ set ∨ z ∈ elements) by
    simpa [ofList] using h [] sorted_nil (by simp)
  induction elements with
  | nil => simp
  | cons x rest ih =>
    intro set hset hsep
    have hx : x ∈ domain := hmem x (by simp)
    have hmember : ∀ w, w ∈ insert lt x set ↔ w ∈ set ∨ w = x := by
      intro w
      rw [mem_insert hlt hset hx]
      constructor
      · intro h
        exact h.imp id And.left
      · intro h
        rcases h with hw | hw
        · exact .inl hw
        · by_cases hold : ∃ y ∈ set, key y = key x
          · obtain ⟨y, hy, hkey⟩ := hold
            exact .inl (hw ▸ hsep y hy x (by simp) hkey ▸ hy)
          · exact .inr ⟨hw, fun y hy hkey => hold ⟨y, hy, hkey⟩⟩
    rw [List.foldl_cons, ih (fun y hy => hmem y (by simp [hy]))
      (fun y hy w hw => hinj y (by simp [hy]) w (by simp [hw])) _ (hset.insert hlt hx), hmember,
      List.mem_cons, or_assoc]
    intro w hw y hy hkey
    rcases (hmember w).mp hw with hold | hnew
    · exact hsep w hold y (by simp [hy]) hkey
    · exact hinj w (by simp [hnew]) y (by simp [hy]) hkey

end

end OrderedSet

end MarketBlocks.Library
