import MarketBlocks.BackTesting.BackTestingData
import MarketBlocks.PaperTrading.PaperTradeApi

/-!
# The test logger

`test_logger` appends the closed orders of each exchange to the trades file as far as they
were not written before, and draws up the report at the end of a run. The trades file is
the list of the orders behind its rows, its header aside.
-/

namespace MarketBlocks

/-- `test_logger_exchange_data`: how many closed orders have been flushed. -/
structure TestLoggerExchangeData where
  closedOrderIndex : ℕ := 0

/-- `test_logger`, with the rows of its trades file. -/
structure TestLogger where
  exchangeData : List TestLoggerExchangeData
  tradesFile : List OrderDescription

namespace TestLogger

/-- `create_test_logger` for the given number of exchanges. -/
def create (exchanges : ℕ) : TestLogger where
  exchangeData := List.replicate exchanges {}
  tradesFile := []

/-- The body of the loop of `flush_trades`, for one exchange. -/
def flushExchange (exchange : TestLoggerExchangeData) (closedOrders : List OrderDescription)
    (tradesFile : List OrderDescription) : TestLoggerExchangeData × List OrderDescription :=
  if closedOrders.isEmpty then (exchange, tradesFile)
  else
    ({ closedOrderIndex := max exchange.closedOrderIndex closedOrders.length },
      tradesFile ++ closedOrders.drop exchange.closedOrderIndex)

/-- `flush_trades`, given the exchanges with their closed orders. -/
def flushFrom : List (TestLoggerExchangeData × PaperTradeApi) → List OrderDescription →
    List TestLoggerExchangeData × List OrderDescription
  | [], tradesFile => ([], tradesFile)
  | (exchange, api) :: rest, tradesFile =>
    let (exchange, tradesFile) := flushExchange exchange api.closedOrders tradesFile
    let (flushed, tradesFile) := flushFrom rest tradesFile
    (exchange :: flushed, tradesFile)

/-- `flush_trades`, exchange by exchange. -/
def flushTrades (apis : List PaperTradeApi) (logger : TestLogger) : TestLogger :=
  let (exchangeData, tradesFile) := flushFrom (logger.exchangeData.zip apis) logger.tradesFile
  { exchangeData, tradesFile }

end TestLogger

/-- The parts of the report that depend on the run and on no clock or balance. -/
structure TestReport where
  dataStartTime : ℤ
  dataEndTime : ℤ
  stepSize : ℤ
  timeSteps : ℤ
  numberOfTrades : ℕ
  deriving DecidableEq, Repr

/-- `generate_back_test_report`. The function that counts the trades drops what it has counted so far, so
that the number is the one of the last exchange. -/
def generateBackTestReport (data : BackTestingData) (apis : List PaperTradeApi) : TestReport where
  dataStartTime := data.startTime
  dataEndTime := data.endTime
  stepSize := data.stepSize
  timeSteps := data.timeSteps
  numberOfTrades := apis.foldl (fun _ api => api.closedOrders.length) 0

end MarketBlocks
