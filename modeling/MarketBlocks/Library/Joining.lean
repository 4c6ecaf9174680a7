import Mathlib.Data.List.Basic

/-!
# Joined texts

A text that is joined of two parts does not say where it was joined. With a separator of at most
one character, two joins give the same text when their parts are the same, and when what one first
part has in excess of the other, less a separator, stands before a separator at the other side.
-/

namespace MarketBlocks.Library

variable {α : Type*}

/-- Two joins of lists at a separator of at most one element. -/
theorem join_eq_join_iff {separator : List α} (hshort : separator.length ≤ 1)
    {first second first' second' : List α} :
    first ++ separator ++ second = first' ++ separator ++ second' ↔
      (first = first' ∧ second = second') ∨
      (∃ between, first' = first ++ separator ++ between ∧
        second = between ++ separator ++ second') ∨
      ∃ between, first = first' ++ separator ++ between ∧
        second' = between ++ separator ++ second := by
  constructor
  · intro h
    match separator, hshort with
    | [], _ =>
      simp only [List.append_nil] at h ⊢
      exact .inr (List.append_eq_append_iff.mp h)
    | [x], _ =>
      simp only [List.append_assoc, List.singleton_append] at h ⊢
      -- the excess is empty, or it begins with the separator
      rcases List.append_eq_append_iff.mp h with ⟨_ | ⟨y, between⟩, hfirst, hsecond⟩ |
          ⟨_ | ⟨y, between⟩, hfirst, hsecond⟩
      · exact .inl ⟨by simpa using hfirst.symm, by simpa using hsecond⟩
      · obtain ⟨rfl, hrest⟩ := List.cons.inj hsecond
        exact .inr (.inl ⟨between, hfirst, hrest⟩)
      · exact .inl ⟨by simpa using hfirst, by simpa using hsecond.symm⟩
      · obtain ⟨rfl, hrest⟩ := List.cons.inj hsecond
        exact .inr (.inr ⟨between, hfirst, hrest⟩)
  · rintro (⟨rfl, rfl⟩ | ⟨between, rfl, rfl⟩ | ⟨between, rfl, rfl⟩)
    · rfl
    · simp
    · simp

/-- Without the last separator, terminated parts are separated ones. -/
theorem dropLast_terminated (separator : α) {parts : List (List α)} (hne : parts ≠ []) :
    (parts.flatMap (· ++ [separator])).dropLast = [separator].intercalate parts := by
  obtain ⟨part, rest, rfl⟩ := List.exists_cons_of_ne_nil hne
  induction rest generalizing part with
  | nil => simp
  | cons next others ih =>
    have hrest : (next :: others).flatMap (· ++ [separator]) ≠ [] := by simp
    rw [List.flatMap_cons, List.dropLast_append_of_ne_nil hrest, ih next (List.cons_ne_nil _ _),
      List.intercalate_cons_cons]

/-- Texts are lists of characters. -/
theorem exists_text {P : List Char → Prop} : (∃ text : String, P text.toList) ↔ ∃ list, P list := by
  constructor
  · exact fun ⟨text, h⟩ => ⟨text.toList, h⟩
  · exact fun ⟨list, h⟩ => ⟨String.ofList list, by simpa using h⟩

/-- Two joins of texts without a separator. -/
theorem text_append_eq_append_iff {first second first' second' : String} :
    first ++ second = first' ++ second' ↔
      (∃ between, first' = first ++ between ∧ second = between ++ second') ∨
      ∃ between, first = first' ++ between ∧ second' = between ++ second := by
  simp only [← String.toList_inj, String.toList_append]
  rw [List.append_eq_append_iff, ← exists_text, ← exists_text]

/-- Two joins of texts at a separator of at most one character. -/
theorem text_join_eq_join_iff {separator : String} (hshort : separator.toList.length ≤ 1)
    {first second first' second' : String} :
    first ++ separator ++ second = first' ++ separator ++ second' ↔
      (first = first' ∧ second = second') ∨
      (∃ between, first' = first ++ separator ++ between ∧
        second = between ++ separator ++ second') ∨
      ∃ between, first = first' ++ separator ++ between ∧
        second' = between ++ separator ++ second := by
  simp only [← String.toList_inj, String.toList_append]
  rw [join_eq_join_iff hshort, ← exists_text, ← exists_text]

/-- What a text has in front of another one that it ends with. -/
def frontOf (text rest : String) : Option String :=
  if rest.toList <:+ text.toList then
    some (String.ofList (text.toList.take (text.toList.length - rest.toList.length)))
  else none

/-- The front is all that a text needs in front of another one. -/
theorem text_eq_append_iff {text front rest : String} :
    text = front ++ rest ↔ frontOf text rest = some front := by
  unfold frontOf
  rw [← String.toList_inj, String.toList_append]
  constructor
  · intro h
    rw [h]
    simp
  · intro h
    split at h
    · next hsuffix =>
      rw [← Option.some.inj h, String.toList_ofList, List.suffix_iff_eq_append.mp hsuffix]
    · cases h

end MarketBlocks.Library
