import MarketBlocks.Library.Base64
import MarketBlocks.Library.Calls
import MarketBlocks.Library.Decimal
import MarketBlocks.Library.Demands
import MarketBlocks.Library.Extremes
import MarketBlocks.Library.FieldText
import MarketBlocks.Library.Grid
import MarketBlocks.Library.Hmac
import MarketBlocks.Library.Interaction
import MarketBlocks.Library.Interleaving
import MarketBlocks.Library.Joining
import MarketBlocks.Library.JsonText
import MarketBlocks.Library.LastWrite
import MarketBlocks.Library.LineReading
import MarketBlocks.Library.LockOrder
import MarketBlocks.Library.OrderedSet
import MarketBlocks.Library.Replication
import MarketBlocks.Library.Rounding
import MarketBlocks.Library.Runs
import MarketBlocks.Library.Sha2
import MarketBlocks.Library.Tally
import MarketBlocks.Library.Thinning
import MarketBlocks.Library.TimeSeries
import MarketBlocks.Library.Tolerance
import MarketBlocks.Library.UnorderedMap
import MarketBlocks.Library.WeightedSum
import MarketBlocks.Common.ConfigFile
import MarketBlocks.Common.Csv
import MarketBlocks.Common.Encoding
import MarketBlocks.Common.Fault
import MarketBlocks.Common.Hash
import MarketBlocks.Common.Json
import MarketBlocks.Common.JsonDemands
import MarketBlocks.Common.MathUtils
import MarketBlocks.Common.NumberText
import MarketBlocks.Common.PriceComparators
import MarketBlocks.Common.StringUtils
import MarketBlocks.Trading.BatchCandle
import MarketBlocks.Trading.DelayedCandle
import MarketBlocks.Trading.Market
import MarketBlocks.Trading.MovingCandle
import MarketBlocks.Trading.MovingWindow
import MarketBlocks.Trading.OhlcvFromTrades
import MarketBlocks.Trading.OrderTexts
import MarketBlocks.Trading.Orders
import MarketBlocks.Trading.TradeHistory
import MarketBlocks.Trading.WindowInvariant
import MarketBlocks.PaperTrading.Blocking
import MarketBlocks.PaperTrading.Confirmation
import MarketBlocks.PaperTrading.ConstantPrice
import MarketBlocks.PaperTrading.Evaluation
import MarketBlocks.PaperTrading.Executions
import MarketBlocks.PaperTrading.FillPrices
import MarketBlocks.PaperTrading.Ledger
import MarketBlocks.PaperTrading.LifeCycle
import MarketBlocks.PaperTrading.Matching
import MarketBlocks.PaperTrading.PaperTradeApi
import MarketBlocks.PaperTrading.Precision
import MarketBlocks.PaperTrading.Rejection
import MarketBlocks.PaperTrading.Session
import MarketBlocks.PaperTrading.TickOrder
import MarketBlocks.PaperTrading.TradeUpdate
import MarketBlocks.PaperTrading.TrailingLimits
import MarketBlocks.BackTesting.AvailablePairs
import MarketBlocks.BackTesting.BackTestMarketApi
import MarketBlocks.BackTesting.BackTestingData
import MarketBlocks.BackTesting.CandleThinning
import MarketBlocks.BackTesting.CandleWindows
import MarketBlocks.BackTesting.CsvDataSource
import MarketBlocks.BackTesting.DataFactory
import MarketBlocks.BackTesting.IteratorCache
import MarketBlocks.BackTesting.KnownPast
import MarketBlocks.BackTesting.LookAhead
import MarketBlocks.BackTesting.TradeLookAhead
import MarketBlocks.BackTesting.WindowTiling
import MarketBlocks.Websockets.BinanceMessageDemands
import MarketBlocks.Websockets.BinanceWebsocket
import MarketBlocks.Websockets.BookHistory
import MarketBlocks.Websockets.BookReplication
import MarketBlocks.Websockets.BybitMessageDemands
import MarketBlocks.Websockets.BybitWebsocket
import MarketBlocks.Websockets.CandleAssertion
import MarketBlocks.Websockets.CoinbaseMessageDemands
import MarketBlocks.Websockets.CoinbaseTicker
import MarketBlocks.Websockets.CoinbaseWebsocket
import MarketBlocks.Websockets.Deadlock
import MarketBlocks.Websockets.DigifinexMessageDemands
import MarketBlocks.Websockets.DigifinexWebsocket
import MarketBlocks.Websockets.ExchangeWebsocketStream
import MarketBlocks.Websockets.FeedKeys
import MarketBlocks.Websockets.KrakenMessageDemands
import MarketBlocks.Websockets.KrakenWebsocket
import MarketBlocks.Websockets.MessageDecoding
import MarketBlocks.Websockets.MessageDemands
import MarketBlocks.Websockets.OhlcvEntries
import MarketBlocks.Websockets.OhlcvFamily
import MarketBlocks.Websockets.OhlcvPublished
import MarketBlocks.Websockets.OhlcvSubscriptionService
import MarketBlocks.Websockets.OrderBookCache
import MarketBlocks.Websockets.Resynchronisation
import MarketBlocks.Websockets.SendingStream
import MarketBlocks.Websockets.SequentialCalls
import MarketBlocks.Websockets.StreamCaches
import MarketBlocks.Websockets.StreamImplementations
import MarketBlocks.Websockets.StreamThreads
import MarketBlocks.Websockets.Subscription
import MarketBlocks.Websockets.TradeBatches
import MarketBlocks.Websockets.Unsubscription
import MarketBlocks.Runner.BackTestRunner
import MarketBlocks.Runner.Configs
import MarketBlocks.Runner.CsvLookAhead
import MarketBlocks.Runner.DynamicLoading
import MarketBlocks.Runner.ErasedFeeds
import MarketBlocks.Runner.LiveRunner
import MarketBlocks.Runner.LiveTestRunner
import MarketBlocks.Runner.NoLookAhead
import MarketBlocks.Runner.NotifyHandlers
import MarketBlocks.Runner.OneTick
import MarketBlocks.Runner.RunToEnd
import MarketBlocks.Runner.Strategy
import MarketBlocks.Runner.StrategyEvents
import MarketBlocks.Runner.TickSafety
import MarketBlocks.Runner.TimeSteps
import MarketBlocks.Runner.TradesFile
import MarketBlocks.Runner.UpdateHandlers
import MarketBlocks.Runner.Watching
import MarketBlocks.Reporting.AssetReports
import MarketBlocks.Reporting.FlushedTrades
import MarketBlocks.Reporting.TestLogger
import MarketBlocks.Reporting.TradesTable
import MarketBlocks.Exchanges.BinanceDemands
import MarketBlocks.Exchanges.BinanceOrders
import MarketBlocks.Exchanges.BinanceResults
import MarketBlocks.Exchanges.BookReading
import MarketBlocks.Exchanges.BybitDemands
import MarketBlocks.Exchanges.BybitResults
import MarketBlocks.Exchanges.CandleReading
import MarketBlocks.Exchanges.CoinbaseDemands
import MarketBlocks.Exchanges.CoinbaseResults
import MarketBlocks.Exchanges.ConfirmedPrice
import MarketBlocks.Exchanges.Decoding
import MarketBlocks.Exchanges.DigifinexDemands
import MarketBlocks.Exchanges.DigifinexResults
import MarketBlocks.Exchanges.KrakenDemands
import MarketBlocks.Exchanges.KrakenResults
import MarketBlocks.Exchanges.OrderRequests
import MarketBlocks.Exchanges.PairLists
import MarketBlocks.Exchanges.PrivateCalls
import MarketBlocks.Exchanges.PrivateRequests
import MarketBlocks.Exchanges.RestCalls
import MarketBlocks.Exchanges.RestRequests
import MarketBlocks.Exchanges.Results
import MarketBlocks.Exchanges.SafeDecoding
import MarketBlocks.Exchanges.SignedRequests
import MarketBlocks.Exchanges.UncaughtFaults
import MarketBlocks.Networking.HttpRequest
