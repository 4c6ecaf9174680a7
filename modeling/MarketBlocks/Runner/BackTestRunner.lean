import MarketBlocks.BackTesting.IteratorCache
import MarketBlocks.PaperTrading.Blocking
import MarketBlocks.Reporting.TestLogger

/-!
# The back test runner

One round of `back_test_runner::run` notifies the subscriptions of the stream, runs the
strategy, flushes the closed orders and moves the data time. Only the strategy and the flush
stand inside the `try` block: what a trade update handler throws ends the run.

The stream's subscriptions are a set without an order, so every round is given the order in
which the set is walked. The only handler is the trade update handler of the paper account.
-/

namespace MarketBlocks

open Library

/-- The order in which an unordered set is walked. -/
structure WalkOrder where
  walk : List UniqueWebsocketSubscription → List UniqueWebsocketSubscription
  perm : ∀ subscriptions, (walk subscriptions).Perm subscriptions

/-- A call that a strategy makes of its account. -/
inductive StrategyCall where
  | addOrder (request : OrderRequest)
  | addOrderConfirm (request : OrderRequest)
  | cancelOrder (orderId : String)

/-- A call of a strategy as one of the account. -/
def StrategyCall.toCall : StrategyCall → Call
  | .addOrder request => .addOrder request
  | .addOrderConfirm request => .addOrderConfirm request
  | .cancelOrder orderId => .cancelOrder orderId

/-- One round as the strategy and the set decide it: the order of the walk, the calls that
`run_iteration` makes, and the `mb_exception` it ends with, its own or one of a call. -/
structure Iteration where
  order : WalkOrder
  calls : List StrategyCall
  raises : Option String

/-- The back test: the data, the subscriptions of the stream, the account and the logger. -/
structure BackTest where
  data : BackTestingData
  subscriptions : List UniqueWebsocketSubscription
  api : PaperTradeApi
  logger : TestLogger

namespace BackTest

/-- `create_exchanges`, and the logger that `run` creates. -/
def create (config : PaperTradingConfig) (data : BackTestingData) : BackTest where
  data := data
  subscriptions := []
  api := .create config
  logger := .create 1

/-- What the account reads of the stream and of the data time. -/
def feed (w : BackTest) : Feed where
  lastTrade pair :=
    match (w.data.getTrade pair).1 with
    | .ok trade => trade
    | .error _ => {}
  tradeStatus pair :=
    if .createTradeSub pair ∈ w.subscriptions then .subscribed else .unsubscribed
  time := w.data.dataTime

/-- `subscribe`: one entry of the set for each pair. -/
def subscribe (subscription : WebsocketSubscription)
    (subscriptions : List UniqueWebsocketSubscription) : List UniqueWebsocketSubscription :=
  subscription.pairItem.foldl
    (fun subscriptions pair =>
      let entry : UniqueWebsocketSubscription :=
        { channel := subscription.channel, pairItem := pair, parameter := subscription.parameter }
      if entry ∈ subscriptions then subscriptions else subscriptions ++ [entry])
    subscriptions

/-- The body of the loop of `notify`. The account reads the last trade of the pair of the
message again, which leaves the data as the first read does. -/
def notifyOne (subscription : UniqueWebsocketSubscription) (w : BackTest) :
    Except Fault Unit × BackTest :=
  match subscription.channel with
  | .trade =>
    match w.data.getTrade subscription.pairItem with
    | (.error fault, data) => (.error fault, { w with data })
    | (.ok _, data) =>
      let w := { w with data }
      let (result, api) := PaperTradeApi.tradeUpdateHandler w.feed subscription.pairItem w.api
      (result, { w with api })
  -- no handler is registered for the other channels
  | .ohlcv | .orderBook => (.ok (), w)

/-- `notify`, subscription by subscription, until one throws. -/
def notify : List UniqueWebsocketSubscription → BackTest → Except Fault Unit × BackTest
  | [], w => (.ok (), w)
  | subscription :: rest, w =>
    match notifyOne subscription w with
    | (.error fault, w) => (.error fault, w)
    | (.ok (), w) => notify rest w

/-- The subscriptions after `add_order` has asked for the trades of its pair. -/
def subscribeForOrder (w : BackTest) (request : OrderRequest) : List UniqueWebsocketSubscription :=
  match PaperTradeApi.subscriptionFor w.feed request with
  | some subscription => subscribe subscription w.subscriptions
  | none => w.subscriptions

/-- One call of the strategy. A new order subscribes to the trades of its pair and reads the
last one. -/
def performCall (w : BackTest) (call : StrategyCall) : BackTest :=
  let api := (w.api.perform w.feed call.toCall).2
  match call.toCall.request? with
  | none => { w with api }
  | some request =>
    { w with
      data := (w.data.getTrade request.pair).2
      subscriptions := w.subscribeForOrder request
      api }

/-- One round of the loop of `run`. -/
def round (w : BackTest) (iteration : Iteration) : Except Fault Unit × BackTest :=
  match notify (iteration.order.walk w.subscriptions) w with
  | (.error fault, w) => (.error fault, w)
  | (.ok (), w) =>
    let w := iteration.calls.foldl performCall w
    let w :=
      match iteration.raises with
      | some _ => w
      | none => { w with logger := w.logger.flushTrades [w.api] }
    (.ok (), { w with data := w.data.increment })

/-- The loop of `run`, with the data times of the iterations that the strategy ran. -/
def runLoop : List Iteration → List ℤ → BackTest → Except Fault Unit × List ℤ × BackTest
  | [], times, w => (.ok (), times, w)
  | iteration :: rest, times, w =>
    match round w iteration with
    | (.error fault, w') => (.error fault, times, w')
    | (.ok (), w') => runLoop rest (times ++ [w.data.dataTime]) w'

/-- `run`: the loop and the report. -/
def run (iterations : ℕ → Iteration) (w : BackTest) : Except Fault TestReport × List ℤ × BackTest :=
  match runLoop ((List.range w.data.timeSteps.toNat).map iterations) [] w with
  | (.error fault, times, w) => (.error fault, times, w)
  | (.ok (), times, w) => (.ok (generateBackTestReport w.data [w.api]), times, w)

end BackTest

end MarketBlocks
