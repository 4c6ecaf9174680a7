import Mathlib.Data.List.TakeWhile
import MarketBlocks.Library.LineReading

/-!
# Fields in a text

A field is written as its name, a sign of assignment and its value, and the fields are separated. Nothing
is escaped, so that the fields are read back exactly when the two signs do not stand where a reader would
stop at them.
-/

namespace MarketBlocks.Library

namespace FieldText

variable {α : Type*}

/-! ## Writing -/

/-- A name and a value with a sign between them. -/
def writeField (assign : α) (field : List α × List α) : List α := field.1 ++ assign :: field.2

/-- Fields with a separator between them. -/
def write (separator assign : α) (fields : List (List α × List α)) : List α :=
  [separator].intercalate (fields.map (writeField assign))

/-- A field without signs where a reader would stop. -/
def Plain (separator assign : α) (field : List α × List α) : Prop :=
  separator ∉ field.1 ∧ assign ∉ field.1 ∧ separator ∉ field.2

variable {separator assign : α} {field : List α × List α} {fields : List (List α × List α)} {text : List α}

/-- Some fields are some text. -/
theorem write_ne_nil (hne : fields ≠ []) : write separator assign fields ≠ [] := by
  obtain ⟨field, rest, rfl⟩ := List.exists_cons_of_ne_nil hne
  cases rest with
  | nil => simp [write, writeField]
  | cons next rest => simp [write, writeField, List.intercalate_cons_cons]

/-- A plain field holds no separator. -/
theorem separator_notMem_writeField (hsigns : separator ≠ assign) (h : Plain separator assign field) :
    separator ∉ writeField assign field := by
  rw [writeField, List.mem_append, List.mem_cons]
  rintro (hmem | hmem | hmem)
  · exact h.1 hmem
  · exact hsigns hmem
  · exact h.2.2 hmem

/-- A part that is added last comes with a separator. -/
theorem intercalate_concat {parts : List (List α)} (hne : parts ≠ []) (sep part : List α) :
    sep.intercalate (parts ++ [part]) = sep.intercalate parts ++ sep ++ part := by
  induction parts with
  | nil => exact absurd rfl hne
  | cons first rest ih =>
    cases rest with
    | nil => simp [List.intercalate_cons_cons]
    | cons next rest =>
      rw [List.cons_append, List.intercalate_cons_of_ne_nil (by simp), ih (List.cons_ne_nil next rest),
        List.intercalate_cons_cons]
      simp only [List.append_assoc]

/-- A field that is added last is written behind a separator. -/
theorem write_concat :
    write separator assign (fields ++ [field]) =
      if fields = [] then writeField assign field
      else write separator assign fields ++ separator :: writeField assign field := by
  rw [write, List.map_append, List.map_singleton]
  split
  · next hnil =>
    rw [hnil, List.map_nil, List.nil_append, List.intercalate_singleton]
  · next hne =>
    rw [intercalate_concat (by simpa using hne), List.append_assoc, List.singleton_append]
    rfl

/-! ## Reading -/

variable [DecidableEq α]

/-- A part without a sign of assignment is a name. -/
def readField (assign : α) (part : List α) : List α × List α :=
  (part.takeWhile (· ≠ assign), (part.dropWhile (· ≠ assign)).tail)

/-- Text is split at the separators, and each part at its first sign. -/
def read (separator assign : α) (text : List α) : List (List α × List α) :=
  if text = [] then [] else (text.splitOn separator).map (readField assign)

/-- A field whose name has no sign in it is read back. -/
theorem readField_writeField (h : assign ∉ field.1) :
    readField assign (writeField assign field) = field := by
  have hname : ∀ c ∈ field.1, decide (c ≠ assign) = true := by
    intro c hc
    exact decide_eq_true fun heq => h (heq ▸ hc)
  rw [readField, writeField, List.takeWhile_append_of_pos hname, List.dropWhile_append_of_pos hname,
    List.takeWhile_cons_of_neg (by simp), List.dropWhile_cons_of_neg (by simp), List.append_nil,
    List.tail_cons]

/-- A name ends at the first sign. -/
theorem assign_notMem_readField : assign ∉ (readField assign text).1 := by
  intro hmem
  simpa using List.mem_takeWhile_imp hmem

/-- What is read was in the text. -/
theorem mem_of_mem_readField {c : α}
    (h : c ∈ (readField assign text).1 ∨ c ∈ (readField assign text).2) : c ∈ text := by
  rcases h with h | h
  · exact (List.takeWhile_prefix _).subset h
  · exact (List.dropWhile_suffix _).subset (List.mem_of_mem_tail h)

/-- Written fields are read back exactly when they are plain. -/
theorem read_write_iff (hsigns : separator ≠ assign) :
    read separator assign (write separator assign fields) = fields ↔
      ∀ field ∈ fields, Plain separator assign field := by
  rcases eq_or_ne fields [] with rfl | hne
  · simp [write, read]
  rw [read, if_neg (write_ne_nil hne)]
  constructor
  · intro h field hfield
    rw [← h] at hfield
    obtain ⟨part, hpart, rfl⟩ := List.mem_map.mp hfield
    have hseparator := InputStream.notMem_of_mem_splitOn hpart
    exact ⟨fun hmem => hseparator (mem_of_mem_readField (.inl hmem)), assign_notMem_readField,
      fun hmem => hseparator (mem_of_mem_readField (.inr hmem))⟩
  · intro h
    have hparts : ∀ part ∈ fields.map (writeField assign), separator ∉ part := by
      intro part hpart
      obtain ⟨field, hfield, rfl⟩ := List.mem_map.mp hpart
      exact separator_notMem_writeField hsigns (h field hfield)
    rw [write, List.splitOn_intercalate separator hparts (by simpa using hne), List.map_map]
    refine (List.map_congr_left fun field hfield => ?_).trans (List.map_id fields)
    exact readField_writeField (h field hfield).2.1

end FieldText

end MarketBlocks.Library
