import Mathlib.Data.List.Infix
import MarketBlocks.Common.Csv

/-!
# Texts

`split`, `to_upper` and `contains` of the string utilities.
-/

namespace MarketBlocks

open Library

/-- The parts between the delimiters that are not empty. -/
def split (source : String) (delimiter : Char) : List String :=
  let (segments, _) := InputStream.readLines delimiter (.ofText (cString source)) []
  (segments.filter (· ≠ [])).map String.ofList

/-- The letters of the C locale are those of ASCII. -/
def toUpper (source : String) : String := String.ofList (source.toList.map Char.toUpper)

/-- Whether a text is found in another one. -/
def contains (source what : String) : Bool := decide (what.toList <:+: source.toList)

/-- Without a NUL the whole text is split. -/
theorem split_eq {source : String} (h : '\x00' ∉ source.toList) (delimiter : Char) :
    split source delimiter =
      ((source.toList.splitOn delimiter).filter (· ≠ [])).map String.ofList := by
  obtain ⟨lines, last, hread, hempty, hlast⟩ :=
    InputStream.exists_readLines_ofText delimiter source.toList []
  rw [split, cString_eq h, hread]
  by_cases hbuffer : last = []
  · rw [hempty hbuffer, List.filter_append]
    simp
  · rw [(hlast hbuffer).1]

/-- Upper case is taken character by character. -/
theorem toList_toUpper (source : String) : (toUpper source).toList = source.toList.map Char.toUpper :=
  String.toList_ofList

end MarketBlocks
