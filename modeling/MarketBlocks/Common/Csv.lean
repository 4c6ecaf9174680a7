import MarketBlocks.Library.LineReading
import Mathlib.Data.List.TakeWhile

/-!
# CSV rows and documents

`csv_row::to_string` joins the cells of a row with commas, and `parse_row` and `parse_csv` read cells
and rows with `std::getline`. A `std::string_view` is given to the stream as a C string, up to its
first NUL.
-/

namespace MarketBlocks

open Library

/-- `csv_row`. -/
structure CsvRow where
  cells : List String
  deriving DecidableEq, Repr

/-- `csv_document`. -/
structure CsvDocument where
  rows : List CsvRow
  deriving DecidableEq, Repr

/-- `to_string`. -/
def CsvRow.toString (row : CsvRow) : String :=
  match row.cells with
  | [] => ""
  | front :: rest => rest.foldl (fun result cell => result ++ "," ++ cell) front

/-- The characters of a C string. -/
def cString (text : String) : List Char := text.toList.takeWhile (· ≠ '\x00')

/-- `parse_row`: a line that ends with a comma has an empty cell behind it. -/
def parseRow (line : String) : CsvRow :=
  let (cells, stream, cell) := InputStream.readLines ',' (.ofText (cString line)) []
  ⟨(if stream.fail && cell.isEmpty then cells ++ [[]] else cells).map String.ofList⟩

/-- `parse_csv`, line by line. -/
def parseCsv (csvString : String) : CsvDocument :=
  let (lines, _) := InputStream.readLines '\n' (.ofText (cString csvString)) []
  ⟨lines.map fun line => parseRow (String.ofList line)⟩

/-- What `write_to_csv_file` writes: each row and a line break. -/
def writeCsv (rows : List CsvRow) : String := String.join (rows.map fun row => row.toString ++ "\n")

/-! ## Rows -/

variable {row : CsvRow} {line : String}

/-- What precedes the first part precedes the text. -/
private theorem intercalate_append_cons {α : Type*} (separator before first : List α) (rest : List (List α)) :
    separator.intercalate ((before ++ first) :: rest) =
      before ++ separator.intercalate (first :: rest) := by
  cases rest with
  | nil => rw [List.intercalate_singleton, List.intercalate_singleton]
  | cons next rest =>
    rw [List.intercalate_cons_cons, List.intercalate_cons_cons, List.append_assoc, List.append_assoc,
      List.append_assoc]

/-- The loop of `to_string`. -/
private theorem toList_foldl_append (cells : List String) (front : String) :
    (cells.foldl (fun result cell => result ++ "," ++ cell) front).toList =
      [','].intercalate (front.toList :: cells.map String.toList) := by
  induction cells generalizing front with
  | nil => rw [List.foldl_nil, List.map_nil, List.intercalate_singleton]
  | cons cell rest ih =>
    rw [List.foldl_cons, ih, List.map_cons, List.intercalate_cons_cons, String.toList_append,
      String.toList_append, intercalate_append_cons]
    rfl

/-- The cells of a row with a comma between them. -/
theorem CsvRow.toList_toString (row : CsvRow) :
    row.toString.toList = [','].intercalate (row.cells.map String.toList) := by
  rw [CsvRow.toString]
  cases row.cells with
  | nil => rfl
  | cons front rest => exact toList_foldl_append rest front

/-- Without a NUL the stream reads the whole text. -/
theorem cString_eq (h : '\x00' ∉ line.toList) : cString line = line.toList := by
  rw [cString, List.takeWhile_eq_self_iff]
  intro c hc
  rw [decide_eq_true_eq]
  rintro rfl
  exact h hc

/-- The cells of a line are its parts between commas. -/
theorem parseRow_cells (h : '\x00' ∉ line.toList) :
    (parseRow line).cells = (line.toList.splitOn ',').map String.ofList := by
  obtain ⟨cells, cell, hread, hempty, hlast⟩ :=
    InputStream.exists_readLines_ofText ',' line.toList []
  rw [parseRow, cString_eq h, hread]
  cases cell with
  | nil =>
    rw [hempty rfl]
    rfl
  | cons c rest =>
    rw [(hlast (List.cons_ne_nil c rest)).1]
    rfl

/-- Texts are their characters. -/
theorem map_toList_map_ofList (texts : List (List Char)) :
    (texts.map String.ofList).map String.toList = texts := by
  rw [List.map_map]
  exact List.map_id'' (fun _ => String.toList_ofList) texts

/-- A line without a null character is written as it was read. -/
theorem toString_parseRow (h : '\x00' ∉ line.toList) : (parseRow line).toString = line := by
  rw [← String.toList_inj, CsvRow.toList_toString, parseRow_cells h, map_toList_map_ofList,
    List.intercalate_splitOn]

/-- A row has one cell more than its line has commas. -/
theorem length_parseRow (h : '\x00' ∉ line.toList) :
    (parseRow line).cells.length = line.toList.count ',' + 1 := by
  rw [parseRow_cells h, List.length_map, InputStream.length_splitOn]

/-- What is in a joined text is in a part of it, or is the separator. -/
private theorem mem_intercalate_singleton {α : Type*} {separator c : α} {texts : List (List α)}
    (h : c ∈ [separator].intercalate texts) : c = separator ∨ ∃ text ∈ texts, c ∈ text := by
  induction texts with
  | nil => cases h
  | cons text rest ih =>
    cases rest with
    | nil =>
      rw [List.intercalate_singleton] at h
      exact .inr ⟨text, List.mem_cons_self, h⟩
    | cons next rest =>
      rw [List.intercalate_cons_cons, List.append_assoc, List.mem_append, List.mem_append] at h
      rcases h with htext | hseparator | hrest
      · exact .inr ⟨text, List.mem_cons_self, htext⟩
      · exact .inl (List.mem_singleton.mp hseparator)
      · rcases ih hrest with heq | ⟨other, hmem, hother⟩
        · exact .inl heq
        · exact .inr ⟨other, List.mem_cons_of_mem _ hmem, hother⟩

/-- A character that is neither the comma nor in a cell is not in the row. -/
theorem CsvRow.notMem_toString {c : Char} (hcomma : c ≠ ',')
    (h : ∀ cell ∈ row.cells, c ∉ cell.toList) : c ∉ row.toString.toList := by
  rw [CsvRow.toList_toString]
  intro hmem
  rcases mem_intercalate_singleton hmem with heq | ⟨text, htext, hc⟩
  · exact hcomma heq
  · obtain ⟨cell, hcell, rfl⟩ := List.mem_map.mp htext
    exact h cell hcell hc

/-- A row without commas and NULs in its cells is read back. -/
theorem parseRow_toString (hne : row.cells ≠ [])
    (h : ∀ cell ∈ row.cells, ',' ∉ cell.toList ∧ '\x00' ∉ cell.toList) :
    parseRow row.toString = row := by
  have hnul : '\x00' ∉ row.toString.toList :=
    row.notMem_toString (by decide) fun cell hcell => (h cell hcell).2
  have hcells : (parseRow row.toString).cells = row.cells := by
    rw [parseRow_cells hnul, CsvRow.toList_toString, List.splitOn_intercalate]
    · rw [List.map_map]
      exact List.map_id'' (fun _ => String.ofList_toList) row.cells
    · intro text htext
      obtain ⟨cell, hcell, rfl⟩ := List.mem_map.mp htext
      exact (h cell hcell).1
    · simpa using hne
  exact congrArg CsvRow.mk hcells

/-! ## Documents -/

/-- A row that a CSV text can hold. -/
def CsvRow.Plain (row : CsvRow) : Prop :=
  row.cells ≠ [] ∧
    ∀ cell ∈ row.cells, ',' ∉ cell.toList ∧ '\n' ∉ cell.toList ∧ '\x00' ∉ cell.toList

/-- A plain row is read back. -/
theorem CsvRow.Plain.parseRow_toString (h : row.Plain) : parseRow row.toString = row :=
  MarketBlocks.parseRow_toString h.1 fun cell hcell => ⟨(h.2 cell hcell).1, (h.2 cell hcell).2.2⟩

/-- The line of a plain row ends nowhere before its end. -/
theorem CsvRow.Plain.notMem (h : row.Plain) :
    '\n' ∉ row.toString.toList ∧ '\x00' ∉ row.toString.toList :=
  ⟨row.notMem_toString (by decide) fun cell hcell => (h.2 cell hcell).2.1,
    row.notMem_toString (by decide) fun cell hcell => (h.2 cell hcell).2.2⟩

/-- A written document consists of terminated lines. -/
theorem toList_writeCsv (rows : List CsvRow) :
    (writeCsv rows).toList = (rows.map fun row => row.toString.toList).flatMap (· ++ ['\n']) := by
  rw [writeCsv, String.toList_join, List.flatMap_map, List.flatMap_map]
  congr 1
  funext row
  exact String.toList_append

/-- The lines of a written document are the texts of its rows. -/
theorem readLines_writeCsv {rows : List CsvRow} (h : ∀ row ∈ rows, row.Plain) :
    (InputStream.readLines '\n' (.ofText (writeCsv rows).toList) []).1 =
      rows.map fun row => row.toString.toList := by
  rw [toList_writeCsv]
  apply InputStream.readLines_terminated
  intro text htext
  obtain ⟨row, hrow, rfl⟩ := List.mem_map.mp htext
  exact (h row hrow).notMem.1

/-- Plain rows are read back from their document. -/
theorem parseCsv_writeCsv {rows : List CsvRow} (h : ∀ row ∈ rows, row.Plain) :
    parseCsv (writeCsv rows) = ⟨rows⟩ := by
  have hnul : '\x00' ∉ (writeCsv rows).toList := by
    rw [toList_writeCsv]
    intro hmem
    obtain ⟨text, htext, hc⟩ := List.mem_flatMap.mp hmem
    obtain ⟨row, hrow, rfl⟩ := List.mem_map.mp htext
    rcases List.mem_append.mp hc with hc | hc
    · exact (h row hrow).notMem.2 hc
    · simp at hc
  rw [parseCsv, cString_eq hnul]
  simp only [readLines_writeCsv h]
  congr 1
  rw [List.map_map]
  refine List.map_congr_left (fun row hrow => ?_) |>.trans (List.map_id rows)
  rw [Function.comp_apply, String.ofList_toList, (h row hrow).parseRow_toString]
  rfl

/-- A row in front of a text is read in front of the rows of the text. -/
theorem parseCsv_cons (h : row.Plain) (later : String) :
    parseCsv (row.toString ++ "\n" ++ later) = ⟨row :: (parseCsv later).rows⟩ := by
  have hnul : ∀ c ∈ row.toString.toList ++ ['\n'], decide (c ≠ '\x00') = true := by
    intro c hc
    rw [decide_eq_true_eq]
    rintro rfl
    rcases List.mem_append.mp hc with hmem | hmem
    · exact h.notMem.2 hmem
    · simp at hmem
  have htext : cString (row.toString ++ "\n" ++ later) =
      row.toString.toList ++ '\n' :: cString later := by
    have hbreak : "\n".toList = ['\n'] := rfl
    rw [cString, String.toList_append, String.toList_append, hbreak,
      List.takeWhile_append_of_pos hnul, List.append_assoc]
    rfl
  rw [parseCsv, htext, InputStream.readLines_ofText_append h.notMem.1,
    InputStream.readLines_ofText_buffer _ _ [], parseCsv]
  simp only [List.map_cons, String.ofList_toList, h.parseRow_toString]

/-- Only rows that a text can hold are read. -/
theorem plain_of_mem_parseCsv {text : String} (h : row ∈ (parseCsv text).rows) : row.Plain := by
  obtain ⟨line, hline, rfl⟩ := List.mem_map.mp h
  have hbreak : '\n' ∉ line := InputStream.notMem_of_mem_readLines hline
  have hnul : '\x00' ∉ line := by
    intro hmem
    have htext := InputStream.mem_of_mem_splitOn (InputStream.mem_splitOn_of_mem_readLines hline) hmem
    have hne := List.mem_takeWhile_imp htext
    simp at hne
  rw [CsvRow.Plain, parseRow_cells (by rwa [String.toList_ofList]), String.toList_ofList]
  constructor
  · intro hnil
    exact List.splitOn_ne_nil _ _ (List.map_eq_nil_iff.mp hnil)
  · intro cell hcell
    obtain ⟨part, hpart, rfl⟩ := List.mem_map.mp hcell
    rw [String.toList_ofList]
    exact ⟨InputStream.notMem_of_mem_splitOn hpart,
      fun hc => hbreak (InputStream.mem_of_mem_splitOn hpart hc),
      fun hc => hnul (InputStream.mem_of_mem_splitOn hpart hc)⟩

/-- Rows are read back from their text, and a line from its row, which has one cell more than the
line has commas. -/
theorem csv_roundTrip :
    (∀ rows : List CsvRow, (∀ row ∈ rows, row.Plain) → parseCsv (writeCsv rows) = ⟨rows⟩) ∧
      ∀ line : String, '\n' ∉ line.toList → '\x00' ∉ line.toList →
        (parseRow line).toString = line ∧
          (parseRow line).cells.length = line.toList.count ',' + 1 :=
  ⟨fun _ h => parseCsv_writeCsv h, fun _ _ h => ⟨toString_parseRow h, length_parseRow h⟩⟩

/-- Empty cells at the end, a row of one empty cell, and a line of commas. -/
theorem csv_roundTrip_empty :
    parseCsv "a,,\n\n,b\n" = ⟨[⟨["a", "", ""]⟩, ⟨[""]⟩, ⟨["", "b"]⟩]⟩ ∧
      (parseRow ",,").toString = ",," ∧ (parseRow ",,").cells.length = 3 := by
  have hplain : ∀ row ∈ [(⟨["a", "", ""]⟩ : CsvRow), ⟨[""]⟩, ⟨["", "b"]⟩], row.Plain := by
    unfold CsvRow.Plain
    decide
  exact ⟨csv_roundTrip.1 _ hplain, csv_roundTrip.2 ",," (by decide) (by decide)⟩

end MarketBlocks
