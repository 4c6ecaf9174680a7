import MarketBlocks.Common.Fault
import MarketBlocks.Trading.Orders

/-!
# Websocket subscriptions

Channels, candle intervals and the two kinds of subscription: the request for a list of
pairs that a stream is given, and the single feed that its status is asked for.
-/

namespace MarketBlocks

/-- `websocket_channel`. -/
inductive WebsocketChannel where
  | orderBook
  | trade
  | ohlcv
  deriving DecidableEq, Repr

/-- `ohlcv_interval`. -/
inductive OhlcvInterval where
  | m1
  | m5
  | m15
  | h1
  | d1
  | w1
  | unknown
  deriving DecidableEq, Repr

/-- The lengths in the table of `to_seconds`, which has none for `UNKNOWN`. -/
def OhlcvInterval.toSeconds : OhlcvInterval → ℤ
  | .m1 => 60
  | .m5 => 300
  | .m15 => 900
  | .h1 => 3600
  | .d1 => 86400
  | .w1 => 604800
  | .unknown => 0

/-- `to_seconds`, which returns nothing for `UNKNOWN`. -/
def secondsOf (interval : OhlcvInterval) : Except Fault ℤ :=
  if interval = .unknown then .error .undefined else .ok interval.toSeconds

/-- Every known interval has a length. -/
theorem secondsOf_of_ne {interval : OhlcvInterval} (h : interval ≠ .unknown) :
    secondsOf interval = .ok interval.toSeconds := if_neg h

/-- `to_minutes`, undefined like `to_seconds`. -/
def OhlcvInterval.toMinutes (interval : OhlcvInterval) : Except Fault ℤ :=
  (secondsOf interval).map (·.tdiv 60)

/-- `from_seconds`. -/
def OhlcvInterval.fromSeconds (seconds : ℤ) : OhlcvInterval :=
  if seconds = 60 then .m1
  else if seconds = 300 then .m5
  else if seconds = 900 then .m15
  else if seconds = 3600 then .h1
  else if seconds = 86400 then .d1
  else if seconds = 604800 then .w1
  else .unknown

/-- `from_minutes`. -/
def OhlcvInterval.fromMinutes (minutes : ℤ) : OhlcvInterval := .fromSeconds (minutes * 60)

/-- `to_string`; an interval outside the table has the empty name. -/
def OhlcvInterval.toString : OhlcvInterval → String
  | .m1 => "1m"
  | .m5 => "5m"
  | .m15 => "15m"
  | .h1 => "1h"
  | .d1 => "1d"
  | .w1 => "1w"
  | .unknown => ""

/-- `parse_ohlcv_interval`; every other text is the unknown interval. -/
def parseOhlcvInterval (string : String) : OhlcvInterval :=
  if string = "1m" then .m1
  else if string = "5m" then .m5
  else if string = "15m" then .m15
  else if string = "1h" then .h1
  else if string = "1d" then .d1
  else if string = "1w" then .w1
  else .unknown

/-- `subscription_status`. -/
inductive SubscriptionStatus where
  | unsubscribed
  | subscribed
  deriving DecidableEq, Repr

/-- `basic_websocket_subscription`. Only the candle channel carries an interval, so comparing all
fields is the `operator==` of the source, which compares the interval for that channel only. -/
structure BasicWebsocketSubscription (PairItem : Type) where
  channel : WebsocketChannel
  pairItem : PairItem
  parameter : Option OhlcvInterval := none
  deriving DecidableEq, Repr

/-- `websocket_subscription`, to any number of pairs. -/
abbrev WebsocketSubscription := BasicWebsocketSubscription (List TradablePair)

/-- `unique_websocket_subscription`, to one pair. -/
abbrev UniqueWebsocketSubscription := BasicWebsocketSubscription TradablePair

/-- The sets of subscriptions look an entry up by its equality. -/
instance : LawfulBEq UniqueWebsocketSubscription := inferInstance

/-- A feed under the name that the exchange gives its pair. -/
abbrev NamedSubscription := BasicWebsocketSubscription String

namespace BasicWebsocketSubscription

variable {PairItem : Type}

/-- `get_ohlcv_interval`, which throws when the parameter holds no interval. -/
def getOhlcvInterval (subscription : BasicWebsocketSubscription PairItem) :
    Except Fault OhlcvInterval :=
  match subscription.parameter with
  | some interval => .ok interval
  | none => .error .otherException

/-- `create_trade_sub`. -/
def createTradeSub (pairItem : PairItem) : BasicWebsocketSubscription PairItem :=
  { channel := .trade, pairItem }

/-- `create_order_book_sub`. -/
def createOrderBookSub (pairItem : PairItem) : BasicWebsocketSubscription PairItem :=
  { channel := .orderBook, pairItem }

/-- `create_ohlcv_sub`. -/
def createOhlcvSub (pairItem : PairItem) (interval : OhlcvInterval) :
    BasicWebsocketSubscription PairItem :=
  { channel := .ohlcv, pairItem, parameter := some interval }

end BasicWebsocketSubscription

end MarketBlocks
