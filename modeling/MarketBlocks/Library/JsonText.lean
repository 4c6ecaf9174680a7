import Mathlib.Data.List.Basic

/-!
# Arrays of strings as JSON texts

The grammar of RFC 8259 as far as arrays of strings go, with the blanks and the escapes that it allows. A
text is at least as long as its strings with their quotes and separators, and one that is no longer writes
every character as itself.
-/

namespace MarketBlocks.Library.JsonText

/-- A character that can stand for itself. -/
def Unescaped (c : Char) : Prop := c ≠ '"' ∧ c ≠ '\\' ∧ 0x20 ≤ c.toNat

instance (c : Char) : Decidable (Unescaped c) :=
  inferInstanceAs (Decidable (c ≠ '"' ∧ c ≠ '\\' ∧ 0x20 ≤ c.toNat))

/-- What a backslash makes of the character behind it. -/
def escapes : List (Char × Char) :=
  [('"', '"'), ('\\', '\\'), ('/', '/'), ('b', '\x08'), ('f', '\x0c'), ('n', '\n'), ('r', '\r'), ('t', '\t')]

/-- The code unit that four hexadecimal digits denote. -/
def codeUnit (digits : List Char) : Option ℕ :=
  if digits.length = 4 then
    digits.foldlM (fun n c => ("0123456789abcdef".toList.idxOf? c.toLower).map (16 * n + ·)) 0
  else none

/-- What stands between the quotes of a string, and the characters of the string. -/
inductive Characters : List Char → List Char → Prop
  | nil : Characters [] []
  | unescaped {c : Char} {text chars : List Char} (hc : Unescaped c) (h : Characters text chars) :
    Characters (c :: text) (c :: chars)
  | escaped {e c : Char} {text chars : List Char} (hc : (e, c) ∈ escapes) (h : Characters text chars) :
    Characters ('\\' :: e :: text) (c :: chars)
  | unicode {c : Char} {digits text chars : List Char} (hc : codeUnit digits = some c.toNat)
    (h : Characters text chars) : Characters ('\\' :: 'u' :: (digits ++ text)) (c :: chars)
  | surrogates {c : Char} {high low : ℕ} {digits digits' text chars : List Char}
    (hhigh : codeUnit digits = some (0xD800 + high)) (hlow : codeUnit digits' = some (0xDC00 + low))
    (hc : c.toNat = 0x10000 + 0x400 * high + low) (hle : high < 0x400) (hle' : low < 0x400)
    (h : Characters text chars) :
    Characters ('\\' :: 'u' :: (digits ++ '\\' :: 'u' :: (digits' ++ text))) (c :: chars)

/-- White space between the tokens. -/
def Blank (text : List Char) : Prop := ∀ c ∈ text, c ∈ [' ', '\t', '\n', '\r']

/-- A string with blanks around it. -/
inductive Element : List Char → List Char → Prop
  | intro {before text chars after : List Char} (hbefore : Blank before) (h : Characters text chars)
    (hafter : Blank after) : Element (before ++ '"' :: (text ++ '"' :: after)) chars

/-- One or more strings with commas between them. -/
inductive Elements : List Char → List (List Char) → Prop
  | single {text chars : List Char} (h : Element text chars) : Elements text [chars]
  | cons {text chars rest : List Char} {others : List (List Char)} (h : Element text chars)
    (hrest : Elements rest others) : Elements (text ++ ',' :: rest) (chars :: others)

/-- The text is an array of the strings. -/
inductive StringArray : List Char → List (List Char) → Prop
  | empty {before between after : List Char} (hbefore : Blank before) (hbetween : Blank between)
    (hafter : Blank after) : StringArray (before ++ '[' :: (between ++ ']' :: after)) []
  | elements {before text after : List Char} {strings : List (List Char)} (hbefore : Blank before)
    (h : Elements text strings) (hafter : Blank after) :
    StringArray (before ++ '[' :: (text ++ ']' :: after)) strings

/-! ## Lengths -/

variable {text chars : List Char} {strings : List (List Char)}

/-- No escape is shorter than what it stands for. -/
theorem Characters.length_le (h : Characters text chars) :
    chars.length ≤ text.length ∧ (text.length = chars.length → ∀ c ∈ chars, Unescaped c) := by
  induction h with
  | nil => exact ⟨Nat.le_refl _, fun _ => List.forall_mem_nil _⟩
  | unescaped hc h ih =>
    simp only [List.length_cons, List.forall_mem_cons]
    exact ⟨by omega, fun hlength => ⟨hc, ih.2 (by omega)⟩⟩
  | escaped hc h ih =>
    simp only [List.length_cons]
    exact ⟨by omega, fun hlength => by omega⟩
  | unicode hc h ih =>
    simp only [List.length_cons, List.length_append]
    exact ⟨by omega, fun hlength => by omega⟩
  | surrogates hhigh hlow hc hle hle' h ih =>
    simp only [List.length_cons, List.length_append]
    exact ⟨by omega, fun hlength => by omega⟩

example : Characters "\\n\\u0041".toList "\nA".toList :=
  .escaped (by decide) (@Characters.unicode 'A' ['0', '0', '4', '1'] [] [] (by decide) .nil)

/-- A string takes its characters and two quotes at least, and no more only without escapes. -/
theorem Element.length_le (h : Element text chars) :
    chars.length + 2 ≤ text.length ∧ (text.length = chars.length + 2 → ∀ c ∈ chars, Unescaped c) := by
  induction h with
  | intro hbefore h hafter =>
    obtain ⟨hle, hplain⟩ := h.length_le
    simp only [List.length_append, List.length_cons]
    exact ⟨by omega, fun hlength => hplain (by omega)⟩

/-- The length of the strings with their quotes, and with a separator for each. -/
def totalLength : List (List Char) → ℕ
  | [] => 0
  | chars :: rest => chars.length + 3 + totalLength rest

/-- Strings in a list take a comma each as well. -/
theorem Elements.length_le (h : Elements text strings) :
    totalLength strings ≤ text.length + 1 ∧
      (text.length + 1 = totalLength strings → ∀ chars ∈ strings, ∀ c ∈ chars, Unescaped c) := by
  induction h with
  | single h =>
    obtain ⟨hle, hplain⟩ := h.length_le
    simp only [totalLength, List.forall_mem_singleton]
    exact ⟨by omega, fun hlength => hplain (by omega)⟩
  | cons h hrest ih =>
    obtain ⟨hle, hplain⟩ := h.length_le
    simp only [totalLength, List.forall_mem_cons, List.length_append, List.length_cons] at ih ⊢
    exact ⟨by omega, fun hlength => ⟨hplain (by omega), ih.2 (by omega)⟩⟩

/-- An array of them takes its two brackets. -/
theorem StringArray.length_le (h : StringArray text strings) (hne : strings ≠ []) :
    totalLength strings + 1 ≤ text.length ∧
      (text.length = totalLength strings + 1 → ∀ chars ∈ strings, ∀ c ∈ chars, Unescaped c) := by
  cases h with
  | empty => exact absurd rfl hne
  | elements hbefore h hafter =>
    obtain ⟨hle, hplain⟩ := h.length_le
    simp only [List.length_append, List.length_cons]
    exact ⟨by omega, fun hlength => hplain (by omega)⟩

/-! ## The shortest text -/

/-- Each string between quotes, and a comma between two. -/
def compactElements (strings : List (List Char)) : List Char :=
  [','].intercalate (strings.map fun chars => '"' :: (chars ++ ['"']))

/-- The strings without blanks and escapes. -/
def compact (strings : List (List Char)) : List Char := '[' :: (compactElements strings ++ [']'])

/-- There need not be any white space. -/
theorem blank_nil : Blank [] := List.forall_mem_nil _

/-- Characters that need no escape stand for themselves. -/
private theorem characters_of_unescaped (h : ∀ c ∈ chars, Unescaped c) : Characters chars chars := by
  induction chars with
  | nil => exact .nil
  | cons c rest ih =>
    rw [List.forall_mem_cons] at h
    exact .unescaped h.1 (ih h.2)

/-- In quotes they are a string. -/
theorem element_of_unescaped (h : ∀ c ∈ chars, Unescaped c) : Element ('"' :: (chars ++ ['"'])) chars :=
  .intro blank_nil (characters_of_unescaped h) blank_nil

/-- A string and a comma before the others. -/
theorem compactElements_cons_cons (chars next : List Char) (others : List (List Char)) :
    compactElements (chars :: next :: others) =
      ('"' :: (chars ++ ['"'])) ++ ',' :: compactElements (next :: others) := by
  rw [compactElements, List.map_cons, List.map_cons, List.intercalate_cons_cons, List.append_assoc]
  rfl

/-- The last string has no comma. -/
theorem compactElements_singleton (chars : List Char) : compactElements [chars] = '"' :: (chars ++ ['"']) :=
  List.intercalate_singleton

/-- The compact list is as short as can be. -/
theorem length_compactElements (chars : List Char) (rest : List (List Char)) :
    (compactElements (chars :: rest)).length + 1 = totalLength (chars :: rest) := by
  induction rest generalizing chars with
  | nil =>
    rw [compactElements_singleton]
    simp [totalLength]
  | cons next others ih =>
    have hrest := ih next
    rw [compactElements_cons_cons]
    simp only [totalLength, List.length_append, List.length_cons, List.length_nil] at hrest ⊢
    omega

/-- The compact list is a list of its strings when these need no escapes. -/
theorem elements_compactElements {rest : List (List Char)}
    (h : ∀ string ∈ chars :: rest, ∀ c ∈ string, Unescaped c) :
    Elements (compactElements (chars :: rest)) (chars :: rest) := by
  induction rest generalizing chars with
  | nil =>
    rw [compactElements_singleton]
    exact .single (element_of_unescaped (h chars List.mem_cons_self))
  | cons next others ih =>
    rw [List.forall_mem_cons] at h
    rw [compactElements_cons_cons]
    exact .cons (element_of_unescaped h.1) (ih h.2)

/-- The text without blanks and escapes denotes the strings that need no escapes. -/
theorem stringArray_compact_iff (hne : strings ≠ []) :
    StringArray (compact strings) strings ↔ ∀ chars ∈ strings, ∀ c ∈ chars, Unescaped c := by
  obtain ⟨chars, rest, rfl⟩ := List.exists_cons_of_ne_nil hne
  constructor
  · intro h
    apply (h.length_le hne).2
    have hlength := length_compactElements chars rest
    rw [compact, List.length_cons, List.length_append, List.length_singleton]
    omega
  · intro h
    exact .elements blank_nil (elements_compactElements h) blank_nil

end MarketBlocks.Library.JsonText
