import Mathlib.Data.List.DropRight
import Mathlib.Data.List.Sort
import MarketBlocks.Common.Json
import MarketBlocks.Common.StringUtils
import MarketBlocks.Trading.Market
import MarketBlocks.Trading.Orders

/-!
# The CSV data source

`csv_data_source` finds its pairs in the names of the files of a directory and loads the candles of
a pair from the file that the pair names. A row selector drops candles while the file is read, and
the candles that are left are sorted afterwards.
-/

namespace MarketBlocks

open Library

/-! ## Candles in CSV files -/

/-- `get_cell`, in a build without assertions. -/
def CsvRow.getCell (row : CsvRow) (index : ℕ) : Except Fault String :=
  match row.cells[index]? with
  | some cell => .ok cell
  | none => .error .outOfRange

/-- The result of a conversion, which throws when there is none. -/
def converted {α : Type} : Option α → Except Fault α
  | some value => .ok value
  | none => .error .otherException

/-- `from_csv_row<ohlcv_data>`. -/
def ohlcvFromCsvRow (c : Conversions) (row : CsvRow) : Except Fault OhlcvData := do
  let timeStamp ← row.getCell 0 >>= fun cell => converted (c.stoll cell)
  let «open» ← row.getCell 1 >>= fun cell => converted (c.stod cell)
  let high ← row.getCell 2 >>= fun cell => converted (c.stod cell)
  let low ← row.getCell 3 >>= fun cell => converted (c.stod cell)
  let close ← row.getCell 4 >>= fun cell => converted (c.stod cell)
  let volume ← row.getCell 5 >>= fun cell => converted (c.stod cell)
  .ok { timeStamp, «open», high, low, close, volume }

/-- The lines that `stream_file` hands on. -/
def fileLines (contents : String) : List String :=
  (InputStream.readLines '\n' (.ofText contents.toList) []).1.map String.ofList

/-- `read_csv_file` without a row selector. -/
def readCsvFile (c : Conversions) (lines : List String) : Except Fault (List OhlcvData) :=
  lines.mapM fun line => ohlcvFromCsvRow c (parseRow line)

/-- `ohlcv_data_selector`, before its first row. -/
structure OhlcvDataSelector where
  stepSize : ℤ
  lastTime : ℤ := -1
  deriving DecidableEq, Repr

namespace OhlcvDataSelector

/-- `operator()`: whether a candle is selected, and the selector afterwards. -/
def select (selector : OhlcvDataSelector) (data : OhlcvData) : Bool × OhlcvDataSelector :=
  if selector.lastTime ≠ -1 ∧ data.timeStamp - selector.lastTime < selector.stepSize then
    (false, selector)
  else (true, { selector with lastTime := data.timeStamp })

/-- `read_csv_file` with a row selector. -/
def readCsvFile (c : Conversions) (rowSelector : OhlcvDataSelector) :
    List String → Except Fault (List OhlcvData)
  | [] => .ok []
  | line :: lines => do
    let item ← ohlcvFromCsvRow c (parseRow line)
    let (selected, rowSelector) := rowSelector.select item
    let result ← readCsvFile c rowSelector lines
    .ok (if selected then item :: result else result)

end OhlcvDataSelector

/-! ## Pairs in file names -/

/-- `parse_tradable_pair`. -/
def parseTradablePair (string : String) (seperator : Char) : Except Fault TradablePair :=
  match split string seperator with
  | [asset, priceUnit] => .ok { asset := toUpper asset, priceUnit := toUpper priceUnit }
  | _ =>
    .error (.mbException
      s!"Could not parse tradable pair from {string} with seperator \"{seperator}\"")

/-- The stem and the extension of a file name: what is before the last dot, and the rest. A name
whose only dot is the first character has no extension. -/
def splitExtension (fileName : String) : String × String :=
  let stem := (fileName.toList.rdropWhile (· ≠ '.')).dropLast
  if stem = [] ∨ fileName = ".." then (fileName, "")
  else (String.ofList stem, String.ofList ('.' :: fileName.toList.rtakeWhile (· ≠ '.')))

/-- An entry of a directory: the last component of its path, and its type. -/
structure DirectoryEntry where
  fileName : String
  isRegularFile : Bool
  nul_notMem : '\x00' ∉ fileName.toList := by decide

namespace DirectoryEntry

/-- The pair that `get_available_pairs` returns for an entry, if any. What `parse_tradable_pair`
throws is caught. -/
def availablePair (entry : DirectoryEntry) : Option TradablePair :=
  if entry.isRegularFile ∧ (splitExtension entry.fileName).2 = ".csv" then
    (parseTradablePair (splitExtension entry.fileName).1 '_').toOption
  else none

end DirectoryEntry

/-- A data directory: its entries, and the contents of the files that can be opened by their names
relative to the directory. -/
structure CsvDataSource where
  entries : List DirectoryEntry
  contents : String → Option String

namespace CsvDataSource

/-- `get_available_pairs`. -/
def getAvailablePairs (source : CsvDataSource) : List TradablePair :=
  source.entries.filterMap DirectoryEntry.availablePair

/-- The name of the file that `load_data` opens for a pair. -/
def fileName (pair : TradablePair) : String := pair.toStringWith '_' ++ ".csv"

/-- The lines of the file of a pair, of which there are none when it cannot be opened. -/
def lines (source : CsvDataSource) (pair : TradablePair) : List String :=
  match source.contents (fileName pair) with
  | some contents => fileLines contents
  | none => []

/-- `std::sort`: candles compare by their time stamps. -/
def sortByTime (data : List OhlcvData) : List OhlcvData :=
  data.insertionSort fun x y => x.timeStamp ≤ y.timeStamp

/-- `load_data`: the selected rows, sorted by time. -/
def loadData (c : Conversions) (source : CsvDataSource) (pair : TradablePair) (stepSize : ℤ) :
    Except Fault (List OhlcvData) := do
  let data ← OhlcvDataSelector.readCsvFile c { stepSize } (source.lines pair)
  .ok (sortByTime data)

end CsvDataSource

end MarketBlocks
