import MarketBlocks.Websockets.MessageDemands

/-!
# What Digifinex messages have to be like
-/

namespace MarketBlocks

open Library Json

namespace DigifinexWebsocketStream

variable (c : Conversions)

/-- A price, an amount and a time. -/
def tradeDemand : Demand Json :=
  .inTurn [has (asNumeral c) "price", has (asNumeral c) "amount", has asTime "time"]

/-- The last one of the trades is read. -/
def paramsDemand : Demand Json :=
  .read (elementAt 1) (thereAt 1) fun trades =>
    .next (hasAt asString 2) ((underAt (trades.size - 1) (tradeDemand c)).within fun _ => trades)

/-- What a message demands. -/
def messageDemand : Demand Json :=
  .read (get asString "method") (has asString "method") fun method =>
    if method = "trades.update" then under "params" (paramsDemand c) else .nothing

/-- Reading a trade makes the demand of its fields. -/
theorem makes_readTrade : Makes .undefined (readTrade c) (tradeDemand c) :=
  .next (makes_get (asNumeral_defined c) _) fun _ =>
    .next (makes_get (asNumeral_defined c) _) fun _ =>
      .next (makes_get asTime_defined _) fun _ => .pure _

/-- The last trade of a message is its last element. -/
theorem lastTrade_tradesOf (pairName : String) (trades : Json) :
    DigifinexTrades.lastTrade ⟨pairName, tradesOf c trades⟩ =
      trades.elementAt (trades.size - 1) >>= readTrade c := by
  cases trades with
  | array elements =>
    rw [DigifinexTrades.lastTrade, tradesOf, List.getLast?_map, List.getLast?_eq_getElem?, elementAt,
      size]
    cases elements with
    | nil => rfl
    | cons first rest =>
      have hindex : ((first :: rest).length - 1 : ℤ).toNat = (first :: rest).length - 1 := by omega
      have hlast : (first :: rest).length - 1 < (first :: rest).length := by
        rw [List.length_cons]
        omega
      rw [if_pos (by rw [List.length_cons]; omega), hindex, List.getElem?_eq_getElem hlast]
      rfl
  | _ => rfl

/-- A message is undefined exactly where its demand is not met. -/
theorem guards_onMessage (network : MarketNetwork) (s : DigifinexWebsocketStream) :
    Guards .undefined (fun json => (onMessage (decode c json) network s).1)
      (messageDemand c).Safe := by
  have hmessage (json : Json) : (onMessage (decode c json) network s).1 =
      json.get asString "method" >>= fun method =>
        if method = "trades.update" then
          json.element "params" >>= fun params => params.elementAt 1 >>= fun trades =>
            params.getAt asString 2 >>= fun pairName =>
              (trades.elementAt (trades.size - 1) >>= readTrade c) >>= fun trade =>
                (s.processTrade network pairName trade).1
        else .ok () := by
    rw [decode]
    cases json.get asString "method" with
    | error fault => rfl
    | ok method =>
      change (onMessage (if _ then _ else _) network s).1 = if _ then _ else _
      split_ifs
      · change (processTradeMessage (readTrades c json) network s).1 = _
        rw [processTradeMessage, withRead_fst, readTrades]
        simp only [bind_assoc, pure_bind, withRead_fst, lastTrade_tradesOf]
      · rfl
  simp only [hmessage]
  exact .read (makes_get asString_defined _) fun _ =>
    .ite (Guards.part (fun _ => element_ne_undefined_iff) (fun _ _ => element_eq_ok_iff)
        (.read (makes_thereAt 1) fun trades => .next (makes_getAt asString_defined 2) fun pairName =>
          .ending ((makes_elementAt (makes_readTrade c) _).within fun _ => trades) fun trade _ =>
            s.processTrade_ne_undefined network pairName trade))
      (.never fun _ h => by cases h)

end DigifinexWebsocketStream

end MarketBlocks
