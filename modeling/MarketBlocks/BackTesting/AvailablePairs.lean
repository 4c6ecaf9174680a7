import Mathlib
import MarketBlocks.BackTesting.CsvDataSource

/-!
# Pairs and the names of their files

`get_available_pairs` reads a pair off the name of a file: `parse_tradable_pair` splits the stem at
its underscores, drops empty parts and turns the two that are left to upper case. `load_data` joins
the names of a pair with one underscore. The two are inverse to each other on the names that have
no lower-case letters and a single underscore, and on no others. (What is known of upper case comes
with the whole of the library only, hence the import.)
-/

namespace MarketBlocks

open Library

/-! ## Upper case -/

section UpperCase

variable {c : Char} {text : List Char}

/-- Upper case changes lower-case letters alone. -/
private theorem toUpper_eq_self_iff : c.toUpper = c ↔ c.isLower = false := by
  constructor
  · intro h
    rw [← h]
    exact Char.isLower_toUpper_eq_false c
  · intro h
    exact Char.toUpper_eq_of_not_isLower (by rw [h]; exact Bool.false_ne_true)

/-- What is not a letter is the upper case of itself alone. -/
theorem toUpper_eq_iff {other : Char} (h : other.isAlpha = false) : c.toUpper = other ↔ c = other := by
  have hself {d : Char} (hd : d.isAlpha = false) : d.toUpper = d := by
    rw [Char.isAlpha, Bool.or_eq_false_iff] at hd
    exact toUpper_eq_self_iff.mpr hd.2
  constructor
  · intro hupper
    rw [← hupper, Char.isAlpha_toUpper_eq_isAlpha] at h
    rw [← hupper, hself h]
  · rintro rfl
    exact hself h

/-- A text without them is its own upper case. -/
theorem map_toUpper_eq_self (h : ∀ c ∈ text, c.isLower = false) : text.map Char.toUpper = text := by
  induction text with
  | nil => rfl
  | cons c rest ih =>
    rw [List.forall_mem_cons] at h
    rw [List.map_cons, toUpper_eq_self_iff.mpr h.1, ih h.2]

/-- Upper case holds no lower-case letter. -/
theorem isLower_of_mem_map_toUpper (h : c ∈ text.map Char.toUpper) : c.isLower = false := by
  obtain ⟨d, -, rfl⟩ := List.mem_map.mp h
  exact Char.isLower_toUpper_eq_false d

/-- Upper case brings in no underscore. -/
private theorem underscore_notMem_map_toUpper (h : '_' ∉ text) : '_' ∉ text.map Char.toUpper := by
  intro hmem
  obtain ⟨d, hd, hupper⟩ := List.mem_map.mp hmem
  exact h ((toUpper_eq_iff (by decide)).mp hupper ▸ hd)

end UpperCase

/-! ## Splitting and joining -/

/-- A stem that the pair it spells gives back: in upper case, with one underscore. -/
def IsPairName (stem : String) : Prop :=
  (∀ c ∈ stem.toList, c.isLower = false) ∧ stem.toList.count '_' = 1

instance (stem : String) : Decidable (IsPairName stem) :=
  inferInstanceAs (Decidable ((∀ c ∈ stem.toList, c.isLower = false) ∧ stem.toList.count '_' = 1))

/-- Two parts joined in upper case are the text they are split off exactly when nothing was dropped
and nothing was changed. -/
private theorem join_toUpper_eq_iff {text asset priceUnit : List Char}
    (h : (text.splitOn '_').filter (· ≠ []) = [asset, priceUnit]) :
    asset.map Char.toUpper ++ '_' :: priceUnit.map Char.toUpper = text ↔
      (∀ c ∈ text, c.isLower = false) ∧ text.count '_' = 1 := by
  constructor
  · intro hjoin
    have hpart : ∀ part ∈ [asset, priceUnit], '_' ∉ part.map Char.toUpper := by
      intro part hmem
      rw [← h] at hmem
      exact underscore_notMem_map_toUpper
        (InputStream.notMem_of_mem_splitOn (List.mem_filter.mp hmem).1)
    rw [← hjoin]
    constructor
    · intro c hc
      rcases List.mem_append.mp hc with hasset | hrest
      · exact isLower_of_mem_map_toUpper hasset
      · rcases List.mem_cons.mp hrest with rfl | hunit
        · decide
        · exact isLower_of_mem_map_toUpper hunit
    · rw [List.count_append, List.count_cons_self,
        List.count_eq_zero_of_not_mem (hpart asset (by simp)),
        List.count_eq_zero_of_not_mem (hpart priceUnit (by simp))]
  · rintro ⟨hupper, hcount⟩
    -- all parts are there, since there are two of them and two that are not empty
    have hlength : ((text.splitOn '_').filter (· ≠ [])).length = (text.splitOn '_').length := by
      rw [h, InputStream.length_splitOn, hcount]
      rfl
    have hparts : text.splitOn '_' = [asset, priceUnit] := by
      rw [← h, List.filter_eq_self.mpr (List.length_filter_eq_length_iff.mp hlength)]
    have htext : asset ++ '_' :: priceUnit = text := by
      have hjoin : ['_'].intercalate (text.splitOn '_') = text := List.intercalate_splitOn '_'
      rw [hparts] at hjoin
      simpa using hjoin
    have hmap := map_toUpper_eq_self hupper
    rw [← htext, List.map_append, List.map_cons] at hmap
    rw [← htext]
    exact hmap

/-- What `parse_tradable_pair` reads off a text names it again exactly when it has that form. -/
theorem toStringWith_parseTradablePair_iff {stem : String} {pair : TradablePair}
    (hnul : '\x00' ∉ stem.toList) (h : parseTradablePair stem '_' = .ok pair) :
    pair.toStringWith '_' = stem ↔ IsPairName stem := by
  unfold parseTradablePair at h
  split at h
  · next asset priceUnit hsplit =>
    cases h
    rw [split_eq hnul] at hsplit
    have hparts := congrArg (List.map String.toList) hsplit
    rw [map_toList_map_ofList] at hparts
    rw [IsPairName, ← join_toUpper_eq_iff hparts, ← String.toList_inj, TradablePair.toStringWith,
      if_neg (by decide), String.toList_append, String.toList_append, toList_toUpper,
      toList_toUpper]
    simp
  · cases h

/-- Exactly the texts with two parts are read. -/
theorem exists_parseTradablePair_iff {stem : String} {seperator : Char} :
    (∃ pair, parseTradablePair stem seperator = .ok pair) ↔ (split stem seperator).length = 2 := by
  rw [List.length_eq_two]
  unfold parseTradablePair
  constructor
  · rintro ⟨pair, h⟩
    split at h
    · next asset priceUnit hsplit => exact ⟨asset, priceUnit, hsplit⟩
    · cases h
  · rintro ⟨asset, priceUnit, hsplit⟩
    rw [hsplit]
    exact ⟨_, rfl⟩

/-! ## File names -/

/-- A file name is its stem and its extension. -/
theorem splitExtension_append (fileName : String) :
    (splitExtension fileName).1 ++ (splitExtension fileName).2 = fileName := by
  simp only [splitExtension]
  split
  · exact String.append_empty
  · next hstem =>
    have hne : fileName.toList.rdropWhile (· ≠ '.') ≠ [] := by
      intro hnil
      rw [hnil] at hstem
      exact hstem (.inl rfl)
    have hdot := List.rdropWhile_last_not _ _ hne
    have hlast : (fileName.toList.rdropWhile (· ≠ '.')).getLast hne = '.' := by
      simpa using hdot
    have hstemDot := List.dropLast_append_getLast hne
    rw [hlast] at hstemDot
    rw [← String.toList_inj, String.toList_append, String.toList_ofList, String.toList_ofList,
      List.append_cons, hstemDot, List.rdropWhile_append_rtakeWhile]

namespace DirectoryEntry

/-- The names of data files: those with two parts before the extension. -/
def NamesPair (entry : DirectoryEntry) : Prop :=
  entry.isRegularFile = true ∧ (splitExtension entry.fileName).2 = ".csv" ∧
    (split (splitExtension entry.fileName).1 '_').length = 2

variable {entry : DirectoryEntry}

/-- The name of a file holds no null character. -/
theorem nul_notMem_stem (entry : DirectoryEntry) :
    '\x00' ∉ (splitExtension entry.fileName).1.toList := by
  intro hmem
  apply entry.nul_notMem
  rw [← splitExtension_append entry.fileName, String.toList_append]
  exact List.mem_append_left _ hmem

/-- A pair is read off the stem of a regular csv file. -/
theorem availablePair_eq_some_iff {pair : TradablePair} :
    entry.availablePair = some pair ↔
      entry.isRegularFile = true ∧ (splitExtension entry.fileName).2 = ".csv" ∧
        parseTradablePair (splitExtension entry.fileName).1 '_' = .ok pair := by
  unfold availablePair
  rw [← and_assoc]
  split
  · next h =>
    rw [and_iff_right h]
    cases parseTradablePair (splitExtension entry.fileName).1 '_' with
    | error fault => simp [Except.toOption]
    | ok pair => simp [Except.toOption]
  · next h => simp [h]

/-- An entry gives a pair exactly when it names one. -/
theorem exists_availablePair_iff :
    (∃ pair, entry.availablePair = some pair) ↔ entry.NamesPair := by
  unfold NamesPair
  rw [← exists_parseTradablePair_iff]
  simp only [availablePair_eq_some_iff, exists_and_left]

/-- The file of a pair is the one that the pair was read off exactly when its name has that form. -/
theorem fileName_eq_iff {pair : TradablePair} (h : entry.availablePair = some pair) :
    CsvDataSource.fileName pair = entry.fileName ↔
      IsPairName (splitExtension entry.fileName).1 := by
  obtain ⟨-, hextension, hparse⟩ := availablePair_eq_some_iff.mp h
  have hname := splitExtension_append entry.fileName
  rw [hextension] at hname
  rw [← toStringWith_parseTradablePair_iff entry.nul_notMem_stem hparse, CsvDataSource.fileName]
  constructor
  · intro heq
    rw [← hname, String.append_left_inj] at heq
    exact heq
  · intro heq
    rw [heq, hname]

end DirectoryEntry

namespace CsvDataSource

/-- All available pairs are loaded from the files they were found for exactly when the names of all
data files are in upper case and have a single underscore. -/
theorem opens_availablePairs_iff (source : CsvDataSource) :
    (∀ entry ∈ source.entries, ∀ pair, entry.availablePair = some pair →
        fileName pair = entry.fileName) ↔
      ∀ entry ∈ source.entries, entry.NamesPair →
        IsPairName (splitExtension entry.fileName).1 := by
  constructor
  · intro h entry hentry hnames
    obtain ⟨pair, hpair⟩ := DirectoryEntry.exists_availablePair_iff.mpr hnames
    exact (DirectoryEntry.fileName_eq_iff hpair).mp (h entry hentry pair hpair)
  · intro h entry hentry pair hpair
    apply (DirectoryEntry.fileName_eq_iff hpair).mpr
    exact h entry hentry (DirectoryEntry.exists_availablePair_iff.mp ⟨pair, hpair⟩)

/-- A directory with one file, whose name is in lower case. -/
def lowerCase : CsvDataSource where
  entries := [{ fileName := "btc_usd.csv", isRegularFile := true }]
  contents := fun name => if name = "btc_usd.csv" then some "100,1,2,3,4,5\n" else none

/-- The pair of this file is available, but nothing is loaded for it. -/
theorem lowerCase_not_opened :
    lowerCase.getAvailablePairs = [{ asset := "BTC", priceUnit := "USD" }] ∧
      lowerCase.loadData .ofDigits { asset := "BTC", priceUnit := "USD" } 60 = .ok [] ∧
      ¬∀ entry ∈ lowerCase.entries, ∀ pair, entry.availablePair = some pair →
        fileName pair = entry.fileName := by
  have hsplit : split "btc_usd" '_' = ["btc", "usd"] := by
    rw [split_eq (by decide)]
    decide
  have hpair : ∀ entry ∈ lowerCase.entries,
      entry.availablePair = some { asset := "BTC", priceUnit := "USD" } := by
    intro entry hentry
    rw [List.mem_singleton.mp hentry]
    apply DirectoryEntry.availablePair_eq_some_iff.mpr
    refine ⟨rfl, by decide, ?_⟩
    change parseTradablePair "btc_usd" '_' = _
    rw [parseTradablePair, hsplit]
    decide
  refine ⟨?_, by decide, fun h => ?_⟩
  · rw [getAvailablePairs]
    change List.filterMap _ [_] = _
    rw [List.filterMap_cons_some (hpair _ List.mem_cons_self), List.filterMap_nil]
  · exact absurd (h _ List.mem_cons_self _ (hpair _ List.mem_cons_self)) (by decide)

end CsvDataSource

end MarketBlocks
