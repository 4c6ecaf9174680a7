import MarketBlocks.Exchanges.BinanceDemands
import MarketBlocks.Exchanges.BybitDemands
import MarketBlocks.Exchanges.CoinbaseDemands
import MarketBlocks.Exchanges.DigifinexDemands
import MarketBlocks.Exchanges.KrakenDemands
import MarketBlocks.Exchanges.PrivateRequests
import MarketBlocks.Library.Interaction

/-!
# Requests and the answers to them

`send_http_request` hands a request to the HTTP service and reads what is answered. A call of an exchange
is a program that sends requests, one after the other, each with the function that reads its answer.
-/

namespace MarketBlocks

open Library

/-! ## Readers -/

/-- The functions that read answers. -/
inductive RestReader where
  | kraken (reader : Kraken.Reader)
  | coinbase (reader : Coinbase.Reader)
  | bybit (reader : Bybit.Reader)
  | digifinex (reader : Digifinex.Reader)
  | binance (reader : Binance.Reader)

namespace RestReader

/-- What a reader returns. -/
abbrev Value : RestReader → Type
  | kraken reader => reader.Value
  | coinbase reader => reader.Value
  | bybit reader => reader.Value
  | digifinex reader => reader.Value
  | binance reader => reader.Value

variable (c : Conversions)

/-- The reader of one of the five exchanges. -/
def read : (reader : RestReader) → Answer → Except Fault (Result reader.Value)
  | kraken reader => reader.read c
  | coinbase reader => reader.read c
  | bybit reader => reader.read c
  | digifinex reader => reader.read
  | binance reader => reader.read c

/-- What a reader demands of a document. -/
def demand : RestReader → Demand Json
  | kraken reader => Kraken.documentDemand (reader.demand c)
  | coinbase reader => Coinbase.documentDemand (reader.demand c)
  | bybit reader => Bybit.documentDemand (reader.demand c)
  | digifinex reader => Digifinex.documentDemand reader.demand
  | binance reader => reader.demand c

/-- A document is read without undefined behaviour when it satisfies the demand of its reader. -/
theorem decodes (reader : RestReader) : Decodes (reader.read c) (reader.demand c) := by
  cases reader with
  | kraken reader => exact reader.decodes c
  | coinbase reader => exact reader.decodes c
  | bybit reader => exact reader.decodes c
  | digifinex reader => exact reader.decodes
  | binance reader => exact reader.decodes c

end RestReader

/-! ## Sending -/

/-- `http_response`. -/
structure HttpResponse where
  responseCode : ℤ
  message : String

/-- The arguments of `send_http_request`: the request, as it is at the time of a clock, and the reader. -/
structure Sent where
  request : ℤ → HttpRequest
  reader : RestReader

/-- `http_service`, with the clock that requests are stamped with. A request is answered, or it fails with
the text of an error. -/
structure HttpService (ν : Type*) where
  time : ν → ℤ
  send : HttpRequest → ν → Except String HttpResponse × ν

/-- The service sees the request alone. -/
def HttpService.answer {ν : Type*} (service : HttpService ν) (sent : Sent) (state : ν) :
    Except String HttpResponse × ν :=
  service.send (sent.request (service.time state)) state

/-- A program that sends requests, and may throw. -/
abbrev Rest := ExceptT Fault (Interaction Sent (Except String HttpResponse))

/-- The third-party functions that the exchanges are linked with. -/
structure RestLibraries where
  security : Security
  conversions : Conversions
  /-- A text that is no document raises. -/
  parseJson : String → Option Json
  objectText : RequestParameters → String
  /-- `what` of an exception. -/
  what : Fault → String

variable (libs : RestLibraries)

/-- Parsing throws for a text that is no document. -/
def RestLibraries.answer (text : String) : Answer :=
  match libs.parseJson text with
  | some json => .ok json
  | none => .error .otherException

/-- The text of the exception for what a reader has reported. -/
def RestLibraries.error : Failure → String
  | .message text => text
  | .exception fault => libs.what fault

/-- `send_http_request`, from the reply of the service on. -/
def readReply (reader : RestReader) (reply : Except String HttpResponse) : Except Fault reader.Value :=
  match reply with
  | .error text => .error (.mbException ("HTTP Error: " ++ text))
  | .ok response =>
    if response.responseCode ≠ 200 then .error (.mbException response.message)
    else
      match reader.read libs.conversions (libs.answer response.message) with
      | .ok (.ok value) => .ok value
      | .ok (.error failure) => .error (.mbException (libs.error failure))
      | .error fault => .error fault

/-- `send_http_request`: a request, and the reader for its answer. -/
def sendHttpRequest (request : ℤ → HttpRequest) (reader : RestReader) : Rest reader.Value :=
  ExceptT.mk (.call ⟨request, reader⟩ fun reply => .done (readReply libs reader reply))

/-! ## What is thrown -/

/-- Neither a value nor an `mb_exception`. -/
def Uncaught {α : Type*} (result : Except Fault α) : Prop :=
  ∃ fault, result = .error fault ∧ fault.isMbException = false

/-- A document is answered that its reader goes wrong on. -/
def Unreadable (entry : Sent × Except String HttpResponse) : Prop :=
  ∃ response json, entry.2 = .ok response ∧ response.responseCode = 200 ∧
    libs.parseJson response.message = some json ∧ ¬(entry.1.reader.demand libs.conversions).Safe json

/-- A result ends nothing. -/
theorem not_uncaught_ok {α : Type*} (value : α) : ¬Uncaught (.ok value : Except Fault α) := by
  rintro ⟨fault, h, -⟩
  cases h

/-- The runner catches every `mb_exception` and nothing else. -/
theorem uncaught_error_iff {α : Type*} {fault : Fault} :
    Uncaught (.error fault : Except Fault α) ↔ fault.isMbException = false := by
  constructor
  · rintro ⟨fault', h, hfault⟩
    cases h
    exact hfault
  · exact fun hfault => ⟨fault, rfl, hfault⟩

/-- An `mb_exception` is caught. -/
theorem not_uncaught_mbException {α : Type*} (message : String) :
    ¬Uncaught (.error (.mbException message) : Except Fault α) :=
  mt uncaught_error_iff.mp (by simp [Fault.isMbException])

/-- What gets through the block of a reader is no `mb_exception`. -/
theorem catching_error {α : Type} {block : Except Fault (Result α)} {fault : Fault}
    (h : catching block = .error fault) : fault.isMbException = false := by
  cases block with
  | ok result => cases h
  | error fault' =>
    cases fault' with
    | undefined =>
      cases h
      rfl
    | _ => cases h

/-- No reader lets an `mb_exception` out. -/
theorem RestReader.read_error (c : Conversions) {reader : RestReader} {answer : Answer} {fault : Fault}
    (h : reader.read c answer = .error fault) : fault.isMbException = false := by
  cases reader with
  | kraken reader => cases reader <;> exact catching_error h
  | coinbase reader => cases reader <;> exact catching_error h
  | bybit reader => cases reader <;> exact catching_error h
  | digifinex reader => cases reader <;> exact catching_error h
  | binance reader =>
    cases reader with
    | closedOrders =>
      cases h
      rfl
    | _ => exact catching_error h

/-- A text that is no document becomes an error, except for the reader that is not written. -/
theorem RestReader.read_otherException (c : Conversions) {reader : RestReader}
    (hreader : reader ≠ .binance .closedOrders) :
    reader.read c (.error .otherException) = .ok (.error (.exception .otherException)) := by
  cases reader with
  | kraken reader => cases reader <;> rfl
  | coinbase reader => cases reader <;> rfl
  | bybit reader => cases reader <;> rfl
  | digifinex reader => cases reader <;> rfl
  | binance reader =>
    cases reader with
    | closedOrders => exact absurd rfl hreader
    | _ => rfl

/-- A document fails to be read exactly when its reader goes wrong on it. -/
theorem RestReader.exists_read_error_iff (c : Conversions) (reader : RestReader) (json : Json) :
    (∃ fault, reader.read c (.ok json) = .error fault) ↔ ¬(reader.demand c).Safe json := by
  rw [← reader.decodes c json]
  cases reader.read c (.ok json) with
  | ok result => exact iff_of_false nofun (not_not_intro ⟨result, rfl⟩)
  | error fault => exact iff_of_true ⟨fault, rfl⟩ nofun

/-- Only an answer of status 200 is read, and only a document can be unreadable. -/
theorem unreadable_ok_iff {sent : Sent} {response : HttpResponse} :
    Unreadable libs (sent, .ok response) ↔ response.responseCode = 200 ∧
      ∃ json, libs.parseJson response.message = some json ∧
        ¬(sent.reader.demand libs.conversions).Safe json := by
  constructor
  · rintro ⟨response', json, heq, hcode, hjson, hunsafe⟩
    cases heq
    exact ⟨hcode, json, hjson, hunsafe⟩
  · rintro ⟨hcode, json, hjson, hunsafe⟩
    exact ⟨response, json, rfl, hcode, hjson, hunsafe⟩

/-- A document that is read gives a value or the text of an `mb_exception`. -/
theorem uncaught_readReply_document_iff (sent : Sent) {response : HttpResponse} {json : Json}
    (hcode : response.responseCode = 200) (hjson : libs.parseJson response.message = some json) :
    Uncaught (readReply libs sent.reader (.ok response)) ↔
      ¬(sent.reader.demand libs.conversions).Safe json := by
  have hanswer : libs.answer response.message = .ok json := by rw [RestLibraries.answer, hjson]
  rw [← RestReader.exists_read_error_iff, readReply, if_neg (not_not_intro hcode), hanswer]
  cases hread : sent.reader.read libs.conversions (.ok json) with
  | error fault => exact iff_of_true ⟨fault, rfl, RestReader.read_error _ hread⟩ ⟨fault, rfl⟩
  | ok result =>
    cases result with
    | ok value => exact iff_of_false (not_uncaught_ok value) nofun
    | error failure => exact iff_of_false (not_uncaught_mbException _) nofun

/-- What is thrown is an `mb_exception` unless a document is answered that the reader goes wrong on. -/
theorem uncaught_readReply_iff (sent : Sent) (hreader : sent.reader ≠ .binance .closedOrders)
    (reply : Except String HttpResponse) :
    Uncaught (readReply libs sent.reader reply) ↔ Unreadable libs (sent, reply) := by
  cases reply with
  | error text =>
    exact iff_of_false (not_uncaught_mbException _) (by rintro ⟨response, json, h, -⟩; cases h)
  | ok response =>
    rw [unreadable_ok_iff]
    by_cases hcode : response.responseCode = 200
    · cases hjson : libs.parseJson response.message with
      | none =>
        have hanswer : libs.answer response.message = .error .otherException := by
          rw [RestLibraries.answer, hjson]
        rw [readReply, if_neg (not_not_intro hcode), hanswer, RestReader.read_otherException _ hreader]
        exact iff_of_false (not_uncaught_mbException _) nofun
      | some json =>
        rw [uncaught_readReply_document_iff libs sent hcode hjson]
        constructor
        · exact fun hunsafe => ⟨hcode, json, rfl, hunsafe⟩
        · rintro ⟨-, json', heq, hunsafe⟩
          cases heq
          exact hunsafe
    · rw [readReply, if_pos hcode]
      exact iff_of_false (not_uncaught_mbException _) fun h => hcode h.1

end MarketBlocks
