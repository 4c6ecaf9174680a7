import MarketBlocks.Common.Csv
import MarketBlocks.Common.NumberText
import MarketBlocks.Reporting.FlushedTrades
import MarketBlocks.Trading.OrderTexts

/-!
# The text of the trades file

The file starts with a header of six names. The row of an order has seven cells: its type stands
between its id and its pair, and no name of the header stands for it.
-/

namespace MarketBlocks

/-- `to_csv_row` of an order. -/
def OrderDescription.toCsvRow (data : OrderDescription) : CsvRow :=
  ⟨[toString data.timeStamp, data.orderId, data.orderType.toString, data.pairName, data.action.toString,
    stdToString data.price, stdToString data.volume]⟩

/-- The header of the trades file. -/
def tradesCsvHeaders : List String := ["Time Stamp", "Order ID", "Market", "Action", "Price", "Volume"]

/-- What `create_trades_file` writes. -/
def createTradesFile : String := (CsvRow.mk tradesCsvHeaders).toString ++ "\n"

/-- The text of the trades file: the header, and what `flush_trades` has written. -/
def TestLogger.tradesText (logger : TestLogger) : String :=
  createTradesFile ++ writeCsv (logger.tradesFile.map OrderDescription.toCsvRow)

/-! ## Reading the table -/

/-- The fields of an order with the names that stand for them. -/
def OrderDescription.fields (order : OrderDescription) : List (String × String) :=
  [("Time Stamp", toString order.timeStamp), ("Order ID", order.orderId), ("Market", order.pairName),
    ("Action", order.action.toString), ("Price", stdToString order.price),
    ("Volume", stdToString order.volume)]

/-- The cell under a name of the header. -/
def CsvRow.cellUnder (header row : CsvRow) (name : String) : Option String :=
  (header.cells.zip row.cells).lookup name

/-- The row has a cell under each name of the header and no others, and they hold the fields of the
order. -/
structure CsvRow.Describes (header row : CsvRow) (order : OrderDescription) : Prop where
  length : row.cells.length = header.cells.length
  cellUnder : ∀ field ∈ order.fields, header.cellUnder row field.1 = some field.2

/-- The text is read as the header and one row for each order. -/
def ReadsBack (text : String) (orders : List OrderDescription) : Prop :=
  ∃ header rows, parseCsv text = ⟨header :: rows⟩ ∧ header.cells = tradesCsvHeaders ∧
    List.Forall₂ (fun order row => header.Describes row order) orders rows

/-- The file has the closed orders of each exchange in the order in which they were closed, and its text
is read back as what the file has. -/
structure TestLogger.TableReadBack (logger : TestLogger) (apis : List PaperTradeApi) : Prop where
  complete : logger.Complete apis
  readsBack : ReadsBack logger.tradesText logger.tradesFile

/-- A cell under a header is one of the row. -/
theorem CsvRow.mem_of_cellUnder {header row : CsvRow} {name cell : String}
    (h : header.cellUnder row name = some cell) : cell ∈ row.cells := by
  obtain ⟨before, later, hzip, -⟩ := List.lookup_eq_some_iff.mp h
  have hmem : (name, cell) ∈ header.cells.zip row.cells := by
    rw [hzip]
    exact List.mem_append_right _ List.mem_cons_self
  exact (List.of_mem_zip hmem).2

/-- Only the id and the pair of an order can break its row. -/
theorem OrderDescription.toCsvRow_plain {data : OrderDescription}
    (h : ∀ cell ∈ [data.orderId, data.pairName],
      ',' ∉ cell.toList ∧ '\n' ∉ cell.toList ∧ '\x00' ∉ cell.toList) : data.toCsvRow.Plain := by
  have htime (c : Char) (hdigit : c.isDigit = false) (hminus : c ≠ '-') :
      c ∉ (toString data.timeStamp).toList := notMem_toString_int data.timeStamp hdigit hminus
  have hnumber (number : ℚ) : ',' ∉ (stdToString number).toList ∧ '\n' ∉ (stdToString number).toList ∧
      '\x00' ∉ (stdToString number).toList :=
    ⟨notMem_stdToString number (by decide) (by decide) (by decide),
      notMem_stdToString number (by decide) (by decide) (by decide),
      notMem_stdToString number (by decide) (by decide) (by decide)⟩
  constructor
  · exact List.cons_ne_nil _ _
  · intro cell hcell
    simp only [toCsvRow, List.mem_cons, List.not_mem_nil, or_false] at hcell
    rcases hcell with rfl | rfl | rfl | rfl | rfl | rfl | rfl
    · exact ⟨htime _ (by decide) (by decide), htime _ (by decide) (by decide),
        htime _ (by decide) (by decide)⟩
    · exact h _ List.mem_cons_self
    · cases data.orderType <;> decide
    · exact h _ (List.mem_cons_of_mem _ List.mem_cons_self)
    · cases data.action <;> decide
    · exact hnumber data.price
    · exact hnumber data.volume

/-- The header is a plain row. -/
private theorem headers_plain : (CsvRow.mk tradesCsvHeaders).Plain := by
  unfold CsvRow.Plain
  decide

/-- The rows of a file whose first order has a plain id and a plain pair. -/
theorem parseCsv_createTradesFile (later : String) :
    parseCsv (createTradesFile ++ later) = ⟨⟨tradesCsvHeaders⟩ :: (parseCsv later).rows⟩ :=
  parseCsv_cons headers_plain later

/-- The row of the first order cannot be read by the header: if it is read at all, it has a cell too
many. -/
private theorem not_readsBack_cons (order : OrderDescription) (rest : List OrderDescription) :
    ¬ReadsBack (createTradesFile ++ writeCsv ((order :: rest).map OrderDescription.toCsvRow))
      (order :: rest) := by
  rintro ⟨header, rows, hparse, hheader, hrows⟩
  cases hrows with
  | @cons _ row _ rows hdescribes hrest =>
    have hcells : row.Plain := by
      apply plain_of_mem_parseCsv
      rw [hparse]
      exact List.mem_cons_of_mem _ List.mem_cons_self
    -- the id and the pair are found in cells, so they are free of what separates cells
    have hplain : order.toCsvRow.Plain := by
      apply OrderDescription.toCsvRow_plain
      intro cell hcell
      apply hcells.2
      rcases List.mem_cons.mp hcell with rfl | hcell
      · exact CsvRow.mem_of_cellUnder
          (hdescribes.cellUnder ("Order ID", _) (by simp [OrderDescription.fields]))
      · rw [List.mem_singleton.mp hcell]
        exact CsvRow.mem_of_cellUnder
          (hdescribes.cellUnder ("Market", _) (by simp [OrderDescription.fields]))
    have hwrite : writeCsv ((order :: rest).map OrderDescription.toCsvRow) =
        order.toCsvRow.toString ++ "\n" ++ writeCsv (rest.map OrderDescription.toCsvRow) := by
      rw [writeCsv, List.map_cons, List.map_cons, String.join_cons, writeCsv]
    rw [hwrite, parseCsv_createTradesFile, parseCsv_cons hplain] at hparse
    injection hparse with hparse
    injection hparse with hfirst hparse
    injection hparse with hrow hparse
    have hlength := hdescribes.length
    rw [← hrow, hheader] at hlength
    cases hlength

/-- A file without orders is read back. -/
private theorem readsBack_nil : ReadsBack (createTradesFile ++ writeCsv []) [] := by
  have hempty : parseCsv (writeCsv []) = ⟨[]⟩ := parseCsv_writeCsv (List.forall_mem_nil _)
  refine ⟨⟨tradesCsvHeaders⟩, [], ?_, rfl, .nil⟩
  rw [parseCsv_createTradesFile, hempty]

namespace TestLogger

variable {logger : TestLogger} {apis : List PaperTradeApi}

/-- A file is read back exactly when it has no orders, as their rows are longer than the header. -/
theorem readsBack_iff (logger : TestLogger) :
    ReadsBack logger.tradesText logger.tradesFile ↔ logger.tradesFile = [] := by
  rw [tradesText]
  cases logger.tradesFile with
  | nil => exact iff_of_true readsBack_nil rfl
  | cons order rest => exact iff_of_false (not_readsBack_cons order rest) (List.cons_ne_nil _ _)

/-- A complete file is empty when nothing was closed. -/
theorem Complete.tradesFile_eq_nil_iff (h : logger.Complete apis) :
    logger.tradesFile = [] ↔ ∀ k, closedOf apis k = [] := by
  obtain ⟨rows, hrows, hparts⟩ := h
  constructor
  · intro hnil k
    rw [hnil, List.map_eq_nil_iff] at hrows
    rw [← hparts k, hrows]
    rfl
  · intro hclosed
    cases rows with
    | nil => exact hrows.symm
    | cons row rest =>
      have hmem : row.2 ∈ closedOf apis row.1 := by
        rw [← hparts row.1]
        exact List.mem_map_of_mem (List.mem_filter.mpr ⟨List.mem_cons_self, by simp⟩)
      rw [hclosed row.1] at hmem
      cases hmem

/-- No account has closed an order. -/
theorem forall_closedOf_iff : (∀ k, closedOf apis k = []) ↔ ∀ api ∈ apis, api.closedOrders = [] := by
  constructor
  · intro hclosed api hapi
    obtain ⟨k, hk⟩ := List.mem_iff_getElem?.mp hapi
    have hempty := hclosed k
    rw [closedOf, hk] at hempty
    exact hempty
  · intro hclosed k
    rw [closedOf]
    cases hk : apis[k]? with
    | none => rfl
    | some api => exact hclosed api (List.mem_of_getElem? hk)

/-- A flushed trades file is read back by its header only as long as no order was closed. -/
theorem tableReadBack_iff (h : logger.Flushed apis) :
    (logger.flushTrades apis).TableReadBack apis ↔ ∀ api ∈ apis, api.closedOrders = [] := by
  have hcomplete := h.complete_flushTrades
  rw [← forall_closedOf_iff, ← hcomplete.tradesFile_eq_nil_iff, ← readsBack_iff]
  constructor
  · intro hread
    exact hread.readsBack
  · intro hread
    exact ⟨hcomplete, hread⟩

/-- An account that has bought once. -/
def boughtOnce : PaperTradeApi :=
  (Session.run ⟨1, [("GBP", 1000)]⟩
    [(Feed.quote 20, .addOrder (createMarketOrder ⟨"BTC", "GBP"⟩ .buy 2))]).api

/-- One order that was closed is not read back under its headers. -/
theorem boughtOnce_not_tableReadBack :
    boughtOnce.closedOrders = [⟨0, "1", .market, "BTCGBP", .buy, 20, 2⟩] ∧
      ¬((create 1).flushTrades [boughtOnce]).TableReadBack [boughtOnce] := by
  have hclosed : boughtOnce.closedOrders = [⟨0, "1", .market, "BTCGBP", .buy, 20, 2⟩] := by decide +kernel
  constructor
  · exact hclosed
  · intro hread
    have hempty := (readsBack_iff _).mp hread.readsBack
    rw [complete_singleton_iff.mp hread.complete, hclosed] at hempty
    cases hempty

/-- An account that has not traded. -/
theorem unused_tableReadBack :
    ((create 1).flushTrades [.create ⟨1, [("GBP", 1000)]⟩]).TableReadBack
      [.create ⟨1, [("GBP", 1000)]⟩] :=
  (tableReadBack_iff (flushed_create _)).mpr (by simp [PaperTradeApi.create])

end TestLogger

end MarketBlocks
