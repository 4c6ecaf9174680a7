import MarketBlocks.Exchanges.BinanceDemands
import MarketBlocks.Exchanges.BybitDemands
import MarketBlocks.Exchanges.CoinbaseDemands
import MarketBlocks.Exchanges.DigifinexDemands
import MarketBlocks.Exchanges.KrakenDemands
import MarketBlocks.Websockets.BinanceMessageDemands
import MarketBlocks.Websockets.BybitMessageDemands
import MarketBlocks.Websockets.CoinbaseMessageDemands
import MarketBlocks.Websockets.DigifinexMessageDemands
import MarketBlocks.Websockets.KrakenMessageDemands

/-!
# Safe decoding

Everything that takes apart a JSON document of an exchange: the readers of the REST APIs and the
streams. None of them checks that a document has what it reads, so each one is safe for the
documents that meet its demand only.
-/

namespace MarketBlocks

open Library

/-- What decodes a document. A stream does it in a state of its own and of the network. -/
inductive Decoder where
  | binance (reader : Binance.Reader)
  | bybit (reader : Bybit.Reader)
  | coinbase (reader : Coinbase.Reader)
  | digifinex (reader : Digifinex.Reader)
  | kraken (reader : Kraken.Reader)
  | binanceStream (network : Network) (s : BinanceWebsocketStream)
  | bybitStream (network : MarketNetwork) (s : BybitWebsocketStream)
  | coinbaseStream (network : MarketNetwork) (s : CoinbaseWebsocketStream)
  | digifinexStream (network : MarketNetwork) (s : DigifinexWebsocketStream)
  | krakenStream (network : MarketNetwork) (s : KrakenWebsocketStream)

namespace Decoder

/-- A reader returns a success or a failure, and a stream returns or throws. -/
def Safely (c : Conversions) (json : Json) : Decoder → Prop
  | binance reader => ∃ result, reader.read c (.ok json) = .ok result
  | bybit reader => ∃ result, reader.read c (.ok json) = .ok result
  | coinbase reader => ∃ result, reader.read c (.ok json) = .ok result
  | digifinex reader => ∃ result, reader.read (.ok json) = .ok result
  | kraken reader => ∃ result, reader.read c (.ok json) = .ok result
  | binanceStream network s =>
    (s.onMessage (BinanceWebsocketStream.decode c json) network).1 ≠ .error .undefined
  | bybitStream network s =>
    (BybitWebsocketStream.onMessage (BybitWebsocketStream.decode c json) network s).1 ≠
      .error .undefined
  | coinbaseStream network s =>
    (CoinbaseWebsocketStream.onMessage (CoinbaseWebsocketStream.decode c json) network s).1 ≠
      .error .undefined
  | digifinexStream network s =>
    (DigifinexWebsocketStream.onMessage (DigifinexWebsocketStream.decode c json) network s).1 ≠
      .error .undefined
  | krakenStream network s =>
    (KrakenWebsocketStream.onMessage (KrakenWebsocketStream.decode c json) network s).1 ≠
      .error .undefined

/-- What a document has to be like. -/
def demand (c : Conversions) : Decoder → Demand Json
  | binance reader => reader.demand c
  | bybit reader => Bybit.documentDemand (reader.demand c)
  | coinbase reader => Coinbase.documentDemand (reader.demand c)
  | digifinex reader => Digifinex.documentDemand reader.demand
  | kraken reader => Kraken.documentDemand (reader.demand c)
  | binanceStream network s => BinanceWebsocketStream.messageDemand c network s
  | bybitStream _ s => BybitWebsocketStream.messageDemand c s
  | coinbaseStream _ s => CoinbaseWebsocketStream.messageDemand c s
  | digifinexStream _ _ => DigifinexWebsocketStream.messageDemand c
  | krakenStream _ s => KrakenWebsocketStream.messageDemand c s

/-- A document is decoded safely exactly when everything that is read of it is there. -/
theorem safely_iff (c : Conversions) (json : Json) (decoder : Decoder) :
    decoder.Safely c json ↔ (decoder.demand c).Safe json := by
  cases decoder with
  | binance reader => exact reader.decodes c json
  | bybit reader => exact reader.decodes c json
  | coinbase reader => exact reader.decodes c json
  | digifinex reader => exact reader.decodes json
  | kraken reader => exact reader.decodes c json
  | binanceStream network s => exact BinanceWebsocketStream.guards_onMessage c network s json
  | bybitStream network s => exact BybitWebsocketStream.guards_onMessage c network s json
  | coinbaseStream network s => exact CoinbaseWebsocketStream.guards_onMessage c network s json
  | digifinexStream network s => exact DigifinexWebsocketStream.guards_onMessage c network s json
  | krakenStream network s => exact KrakenWebsocketStream.guards_onMessage c network s json

/-- A message of Bybit without a symbol, and an answer of Coinbase without a price. -/
theorem not_safely :
    ¬(bybitStream .idle BybitWebsocketStream.create).Safely .ofNumerals
        (.object [("pong", .integer 1)]) ∧
      ¬(coinbase .price).Safely .ofNumerals (.object []) := by
  constructor
  · exact fun hsafe => hsafe rfl
  · rintro ⟨result, hresult⟩
    change (Except.error Fault.undefined : Except Fault (Result ℚ)) = .ok result at hresult
    cases hresult

end Decoder

end MarketBlocks
