import Mathlib.Data.List.Basic

/-!
# Reading lines from a stream

An input stream with its end-of-file and failure flags, and `getline` on it: a stream that is not
good fails and leaves the buffer alone, an extraction that meets the end sets the first flag, and one
that extracts nothing sets the second. The loop that reads until the stream fails yields the parts
between the delimiters, the last of which only when it is not empty; the buffer then tells the two
cases apart.
-/

namespace MarketBlocks.Library

variable {α : Type*}

/-- The characters that were not extracted yet, and the flags. -/
structure InputStream (α : Type*) where
  rest : List α
  eof : Bool
  fail : Bool
  deriving DecidableEq, Repr

namespace InputStream

/-- A fresh stream over a text. -/
def ofText (text : List α) : InputStream α := ⟨text, false, false⟩

/-- The stream is neither at its end nor failed. -/
def good (stream : InputStream α) : Bool := !stream.eof && !stream.fail

/-- How many more lines a stream can yield at most. -/
def remaining (stream : InputStream α) : ℕ := if stream.good then stream.rest.length + 1 else 0

/-- A line is read at most once behind the end. -/
theorem remaining_le (stream : InputStream α) : stream.remaining ≤ stream.rest.length + 1 := by
  unfold remaining
  split <;> omega

variable [DecidableEq α]

/-- The characters before the delimiter, those behind it, and whether the end was met instead. -/
def extract (delim : α) : List α → List α × List α × Bool
  | [] => ([], [], true)
  | c :: rest =>
    if c = delim then ([], rest, false)
    else
      let (line, later, ended) := extract delim rest
      (c :: line, later, ended)

/-- `getline`: the stream and the buffer after the call. -/
def getline (delim : α) (stream : InputStream α) (buffer : List α) : InputStream α × List α :=
  if stream.good then
    let read := extract delim stream.rest
    (⟨read.2.1, read.2.2, stream.rest.isEmpty⟩, read.1)
  else ({ stream with fail := true }, buffer)

variable {delim : α} {text line later buffer : List α} {stream : InputStream α}

/-- Without the delimiter all of the text is taken. -/
theorem extract_of_notMem (h : delim ∉ text) : extract delim text = (text, [], true) := by
  induction text with
  | nil => rfl
  | cons c rest ih =>
    rw [List.mem_cons, not_or] at h
    rw [extract, if_neg (Ne.symm h.1), ih h.2]

/-- The text is taken up to the first delimiter. -/
theorem extract_append (h : delim ∉ line) :
    extract delim (line ++ delim :: later) = (line, later, false) := by
  induction line with
  | nil => rw [List.nil_append, extract, if_pos rfl]
  | cons c rest ih =>
    rw [List.mem_cons, not_or] at h
    rw [List.cons_append, extract, if_neg (Ne.symm h.1), ih h.2]

/-- What is behind the delimiter is shorter than the text. -/
private theorem extract_length (h : (extract delim text).2.2 = false) :
    (extract delim text).2.1.length < text.length := by
  induction text with
  | nil => cases h
  | cons c rest ih =>
    rw [extract] at h ⊢
    split at h
    · next heq =>
      rw [if_pos heq]
      exact Nat.lt_succ_self _
    · next hne =>
      rw [if_neg hne]
      exact Nat.lt_succ_of_lt (ih h)

/-- A good stream gives the text up to the delimiter or its end. -/
theorem getline_of_good (h : stream.good = true) (buffer : List α) :
    getline delim stream buffer =
      (⟨(extract delim stream.rest).2.1, (extract delim stream.rest).2.2, stream.rest.isEmpty⟩,
        (extract delim stream.rest).1) :=
  if_pos h

/-- A line that was read leaves fewer to read. -/
private theorem remaining_getline_lt (h : (getline delim stream buffer).1.fail = false) :
    (getline delim stream buffer).1.remaining < stream.remaining := by
  cases hgood : stream.good with
  | false =>
    rw [getline, hgood] at h
    cases h
  | true =>
    have hbound : stream.remaining = stream.rest.length + 1 := if_pos hgood
    rw [getline_of_good hgood, hbound]
    cases hmet : (extract delim stream.rest).2.2 with
    | true => exact Nat.succ_pos _
    | false =>
      have hlength := extract_length hmet
      exact Nat.lt_of_le_of_lt (remaining_le _) (Nat.succ_lt_succ hlength)

/-- The loop that reads lines while there are any: the lines, and the stream and the buffer that the
failing call leaves. -/
def readLines (delim : α) (stream : InputStream α) (buffer : List α) :
    List (List α) × InputStream α × List α :=
  if _h : (getline delim stream buffer).1.fail = false then
    let more := readLines delim (getline delim stream buffer).1 (getline delim stream buffer).2
    ((getline delim stream buffer).2 :: more.1, more.2)
  else ([], getline delim stream buffer)
termination_by stream.remaining
decreasing_by exact remaining_getline_lt ‹_›

/-- The empty text has no lines. -/
theorem readLines_ofText_nil : readLines delim (ofText []) buffer = ([], ⟨[], true, true⟩, []) := by
  rw [readLines]
  rfl

/-- A last line without a delimiter is read, and stays in the buffer. -/
theorem readLines_ofText_last (h : delim ∉ text) (hne : text ≠ []) :
    readLines delim (ofText text) buffer = ([text], ⟨[], true, true⟩, text) := by
  have hempty : text.isEmpty = false := List.isEmpty_eq_false_iff.mpr hne
  have hline : getline delim (ofText text) buffer = (⟨[], true, false⟩, text) := by
    simp only [getline, ofText, good, extract_of_notMem h, hempty]
    rfl
  have hend : readLines delim ⟨[], true, false⟩ text = ([], ⟨[], true, true⟩, text) := by
    rw [readLines]
    rfl
  rw [readLines, hline]
  simp only [hend, dite_true]

/-- A line with its delimiter is read, and the stream goes on behind it. -/
theorem readLines_ofText_append (h : delim ∉ line) :
    readLines delim (ofText (line ++ delim :: later)) buffer =
      (line :: (readLines delim (ofText later) line).1, (readLines delim (ofText later) line).2) := by
  have hline : getline delim (ofText (line ++ delim :: later)) buffer = (ofText later, line) := by
    simp only [getline, ofText, good, extract_append h]
    simp
  rw [readLines, hline]
  rfl

/-- A fresh stream fills the buffer before anything is seen of what it held. -/
theorem readLines_ofText_buffer (text buffer other : List α) :
    readLines delim (ofText text) buffer = readLines delim (ofText text) other := by
  have hline : getline delim (ofText text) buffer = getline delim (ofText text) other := by
    rw [getline_of_good rfl, getline_of_good rfl]
  rw [readLines, hline]
  conv_rhs => rw [readLines]

/-- The loop ends when the stream has failed. What it has read, together with an empty last line when
the buffer is empty, are the parts between the delimiters. -/
theorem exists_readLines_ofText (delim : α) (text buffer : List α) :
    ∃ lines last, readLines delim (ofText text) buffer = (lines, ⟨[], true, true⟩, last) ∧
      (last = [] → text.splitOn delim = lines ++ [[]]) ∧
      (last ≠ [] → text.splitOn delim = lines ∧ lines.getLast? = some last) := by
  induction hlength : text.length using Nat.strongRecOn generalizing text buffer with
  | ind n ih =>
    subst hlength
    by_cases hmem : delim ∈ text
    · obtain ⟨line, later, rfl, hline⟩ := List.eq_append_cons_of_mem hmem
      obtain ⟨lines, last, hread, hempty, hlast⟩ := ih later.length (by simp; omega) later line rfl
      rw [readLines_ofText_append hline, hread, List.splitOn_append_cons_self_of_not_mem hline]
      refine ⟨_, _, rfl, fun h => ?_, fun h => ?_⟩
      · rw [hempty h]
        rfl
      · obtain ⟨hparts, hbuffer⟩ := hlast h
        rw [hparts, List.getLast?_cons, hbuffer]
        exact ⟨rfl, rfl⟩
    · by_cases hne : text = []
      · subst hne
        rw [readLines_ofText_nil]
        exact ⟨_, _, rfl, fun _ => rfl, fun h => absurd rfl h⟩
      · rw [readLines_ofText_last hmem hne, List.splitOn_eq_singleton hmem]
        exact ⟨_, _, rfl, fun h => absurd h hne, fun _ => ⟨rfl, rfl⟩⟩

/-- A text of terminated lines has an empty part behind the last delimiter. -/
theorem splitOn_terminated {lines : List (List α)} (h : ∀ line ∈ lines, delim ∉ line) :
    (lines.flatMap (· ++ [delim])).splitOn delim = lines ++ [[]] := by
  induction lines with
  | nil => rfl
  | cons line rest ih =>
    rw [List.forall_mem_cons] at h
    rw [List.flatMap_cons, List.append_assoc, List.singleton_append,
      List.splitOn_append_cons_self_of_not_mem h.1, ih h.2]
    rfl

/-- Terminated lines are read back. -/
theorem readLines_terminated {lines : List (List α)} (h : ∀ line ∈ lines, delim ∉ line)
    (buffer : List α) :
    (readLines delim (ofText (lines.flatMap (· ++ [delim]))) buffer).1 = lines := by
  obtain ⟨read, last, hread, hempty, hlast⟩ :=
    exists_readLines_ofText delim (lines.flatMap (· ++ [delim])) buffer
  rw [splitOn_terminated h] at hempty hlast
  rw [hread]
  by_cases hbuffer : last = []
  · exact (List.append_cancel_right (hempty hbuffer)).symm
  · obtain ⟨hparts, hgetLast⟩ := hlast hbuffer
    rw [← hparts, List.getLast?_append] at hgetLast
    exact absurd (Option.some.inj hgetLast).symm hbuffer

/-- No part between the delimiters has one. -/
theorem notMem_of_mem_splitOn {part : List α} (h : part ∈ text.splitOn delim) : delim ∉ part := by
  induction text generalizing part with
  | nil =>
    rw [List.splitOn_nil, List.mem_singleton] at h
    rw [h]
    exact List.not_mem_nil
  | cons c rest ih =>
    rw [List.splitOn_cons_eq_if_modifyHead] at h
    split at h
    · rcases List.mem_cons.mp h with rfl | hmem
      · exact List.not_mem_nil
      · exact ih hmem
    · next hne =>
      cases hparts : rest.splitOn delim with
      | nil => exact absurd hparts (List.splitOn_ne_nil delim rest)
      | cons first others =>
        rw [hparts] at h ih
        rcases List.mem_cons.mp h with rfl | hmem
        · rw [List.mem_cons, not_or]
          exact ⟨fun heq => hne (beq_iff_eq.mpr heq.symm), ih List.mem_cons_self⟩
        · exact ih (List.mem_cons_of_mem _ hmem)

/-- The parts hold characters of the text. -/
theorem mem_of_mem_splitOn {part : List α} {c : α} (h : part ∈ text.splitOn delim) (hc : c ∈ part) :
    c ∈ text := by
  induction text generalizing part with
  | nil =>
    rw [List.splitOn_nil, List.mem_singleton] at h
    rw [h] at hc
    cases hc
  | cons head rest ih =>
    rw [List.splitOn_cons_eq_if_modifyHead] at h
    split at h
    · rcases List.mem_cons.mp h with rfl | hmem
      · cases hc
      · exact List.mem_cons_of_mem _ (ih hmem hc)
    · cases hparts : rest.splitOn delim with
      | nil => exact absurd hparts (List.splitOn_ne_nil delim rest)
      | cons first others =>
        rw [hparts] at h ih
        rcases List.mem_cons.mp h with rfl | hmem
        · rcases List.mem_cons.mp hc with rfl | hfirst
          · exact List.mem_cons_self
          · exact List.mem_cons_of_mem _ (ih List.mem_cons_self hfirst)
        · exact List.mem_cons_of_mem _ (ih (List.mem_cons_of_mem _ hmem) hc)

/-- A line that is read is one of the parts. -/
theorem mem_splitOn_of_mem_readLines (h : line ∈ (readLines delim (ofText text) buffer).1) :
    line ∈ text.splitOn delim := by
  obtain ⟨lines, last, hread, hempty, hlast⟩ := exists_readLines_ofText delim text buffer
  rw [hread] at h
  by_cases hbuffer : last = []
  · rw [hempty hbuffer]
    exact List.mem_append_left _ h
  · rw [(hlast hbuffer).1]
    exact h

/-- A line that is read has no delimiter. -/
theorem notMem_of_mem_readLines (h : line ∈ (readLines delim (ofText text) buffer).1) :
    delim ∉ line :=
  notMem_of_mem_splitOn (mem_splitOn_of_mem_readLines h)

/-- There is one part more than there are delimiters. -/
theorem length_splitOn (delim : α) (text : List α) :
    (text.splitOn delim).length = text.count delim + 1 := by
  induction text with
  | nil => rfl
  | cons c rest ih =>
    rw [List.splitOn_cons_eq_if_modifyHead, List.count_cons]
    split
    · rw [List.length_cons, ih]
    · rw [List.length_modifyHead, ih]

end InputStream

end MarketBlocks.Library
