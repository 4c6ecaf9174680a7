import MarketBlocks.Exchanges.PrivateCalls
import MarketBlocks.Exchanges.UncaughtFaults

/-!
# The live runner

`live_runner::run` repeats the strategy for ever. An `mb_exception` is logged and the next round begins;
anything else that is thrown ends the process. Whatever ended a run was thrown by the strategy itself or by a
call of it that is to blame. The calls of the websocket streams are not among those of a strategy here.
-/

namespace MarketBlocks

open Library

/-- A call of one of the exchanges. -/
structure LiveCall (n : ℕ) where
  exchange : Fin n
  call : RestCall

/-- The exchanges, and the network behind them. -/
structure LiveWorld (n : ℕ) (ν : Type*) where
  apis : Fin n → RestApi
  network : ν

/-- `run_iteration` on live exchanges: from what the strategy has kept, its calls, how it ends and what it
keeps. The strategy opens no websocket stream and makes no calls in `initialise`. -/
abbrev LiveStrategy (n : ℕ) (κ : Type*) :=
  κ → Interaction (LiveCall n) (Except Fault RestReply) (Except Fault Unit × κ)

namespace LiveWorld

variable (libs : RestLibraries) {ν : Type*} (service : HttpService ν) {n : ℕ}

/-- A call of one exchange, which may change what its client knows. -/
def answer (call : LiveCall n) (w : LiveWorld n ν) : Except Fault RestReply × LiveWorld n ν :=
  match ((w.apis call.exchange).perform libs call.call).run.run service.answer w.network with
  | (.ok (reply, api), network) => (.ok reply, ⟨Function.update w.apis call.exchange api, network⟩)
  | (.error fault, network) => (.error fault, ⟨w.apis, network⟩)

variable {κ : Type*} (strategy : LiveStrategy n κ)

/-- One turn of the loop of `run`. -/
def round (state : κ) (w : LiveWorld n ν) : Except Fault Unit × κ × LiveWorld n ν :=
  match (strategy state).run (answer libs service) w with
  | ((.ok (), state), w) => (.ok (), state, w)
  | ((.error fault, state), w) =>
    if fault.isMbException then (.ok (), state, w) else (.error fault, state, w)

/-- The first turns of the loop. -/
def run : ℕ → κ → LiveWorld n ν → Except Fault Unit × κ × LiveWorld n ν
  | 0, state, w => (.ok (), state, w)
  | rounds + 1, state, w =>
    match round libs service strategy state w with
    | (.ok (), state, w) => run rounds state w
    | (.error fault, state, w) => (.error fault, state, w)

variable {libs service strategy} {state : κ} {w : LiveWorld n ν} {fault : Fault}

/-- A call throws what its exchange throws. -/
theorem blamed_of_answer {call : LiveCall n} (h : (answer libs service call w).1 = .error fault)
    (hfault : fault.isMbException = false) :
    (w.apis call.exchange).Blamed libs service call.call w.network := by
  rw [← RestApi.uncaught_perform_iff]
  rw [answer] at h
  cases hrun : ((w.apis call.exchange).perform libs call.call).run.run service.answer w.network with
  | mk result network =>
    rw [hrun] at h
    cases result with
    | ok value => cases h
    | error fault' =>
      cases h
      exact ⟨fault, rfl, hfault⟩

/-- A round is ended by what the strategy ends with, unless that is an `mb_exception`. -/
theorem round_eq_error_iff :
    (round libs service strategy state w).1 = .error fault ↔
      ((strategy state).run (answer libs service) w).1.1 = .error fault ∧ fault.isMbException = false := by
  rw [round]
  cases hrun : (strategy state).run (answer libs service) w with
  | mk ended w' =>
    obtain ⟨result, state'⟩ := ended
    cases result with
    | ok value => exact iff_of_false nofun (by rintro ⟨h, -⟩; cases h)
    | error fault' =>
      change (if fault'.isMbException = true then _ else _ : Except Fault Unit × κ × LiveWorld n ν).1 = _ ↔
        (.error fault' : Except Fault Unit) = .error fault ∧ _
      split_ifs with hmb
      · refine iff_of_false nofun ?_
        rintro ⟨h, hfault⟩
        cases h
        rw [hmb] at hfault
        cases hfault
      · constructor
        · rintro ⟨⟩
          exact ⟨rfl, Bool.not_eq_true _ ▸ hmb⟩
        · rintro ⟨⟨⟩, -⟩
          rfl

/-- A run that ended did so in one of its rounds, which the rounds before it had reached. -/
theorem exists_round_of_run (rounds : ℕ) {state : κ} {w : LiveWorld n ν}
    (h : (run libs service strategy rounds state w).1 = .error fault) :
    ∃ k < rounds, ∃ state' w', run libs service strategy k state w = (.ok (), state', w') ∧
      (round libs service strategy state' w').1 = .error fault := by
  induction rounds generalizing state w with
  | zero => cases h
  | succ rounds ih =>
    rw [run] at h
    cases hround : round libs service strategy state w with
    | mk result after =>
      obtain ⟨state', w'⟩ := after
      rw [hround] at h
      cases result with
      | ok value =>
        obtain ⟨k, hk, state'', w'', hrun, hended⟩ := ih h
        refine ⟨k + 1, by omega, state'', w'', ?_, hended⟩
        rw [run, hround]
        exact hrun
      | error fault' =>
        cases h
        refine ⟨0, by omega, state, w, rfl, ?_⟩
        rw [hround]

/-- The world after some calls. -/
def After (libs : RestLibraries) (service : HttpService ν) (w w' : LiveWorld n ν) : Prop :=
  ∃ calls : List (LiveCall n), w' = calls.foldl (fun w call => (answer libs service call w).2) w

/-- The world after one more call. -/
theorem After.answer {w w' : LiveWorld n ν} (h : After libs service w w') (call : LiveCall n) :
    After libs service w (LiveWorld.answer libs service call w').2 := by
  obtain ⟨calls, rfl⟩ := h
  exact ⟨calls ++ [call], by rw [List.foldl_append]; rfl⟩

/-- What ends a live run, whatever the strategy does and the network answers: after rounds that were all
survived, something was thrown that is no `mb_exception`, and either no call of the round threw it or one
that is to blame. -/
theorem run_ended (rounds : ℕ) (h : (run libs service strategy rounds state w).1 = .error fault) :
    fault.isMbException = false ∧
      ∃ k < rounds, ∃ state' w', run libs service strategy k state w = (.ok (), state', w') ∧
        ((strategy state').run (answer libs service) w').1.1 = .error fault ∧
        ((∀ call, (call, .error fault) ∉ (strategy state').transcript (answer libs service) w') ∨
          ∃ call v, (call, .error fault) ∈ (strategy state').transcript (answer libs service) w' ∧
            After libs service w' v ∧
            (v.apis call.exchange).Blamed libs service call.call v.network) := by
  obtain ⟨k, hk, state', w', hrun, hround⟩ := exists_round_of_run rounds h
  obtain ⟨hended, hfault⟩ := round_eq_error_iff.mp hround
  refine ⟨hfault, k, hk, state', w', hrun, hended, ?_⟩
  by_cases hown : ∀ call, (call, .error fault) ∉ (strategy state').transcript (answer libs service) w'
  · exact .inl hown
  · push Not at hown
    obtain ⟨call, hcall⟩ := hown
    obtain ⟨v, hafter, hreply⟩ := Interaction.exists_of_mem_transcript (I := After libs service w')
      (fun call v hv => hv.answer call) ⟨[], rfl⟩ hcall
    exact .inr ⟨call, v, hcall, hafter, blamed_of_answer hreply.symm hfault⟩

/-- Ask Kraken for a price in the first round, and place a trailing order in the second one. -/
def trailOnKraken (pair : TradablePair) : LiveStrategy 1 ℕ
  | 0 => .call ⟨0, .getPrice pair⟩ fun reply => .done (reply.map fun _ => (), 1)
  | rounds + 1 =>
    .call ⟨0, .account (.addOrder (createTrailingStopLossOrder pair .buy 1 1 1))⟩ fun reply =>
      .done (reply.map fun _ => (), rounds + 2)

/-- A network that is down counts the requests. -/
def downNetwork : HttpService ℕ where
  time requests := requests
  send _ requests := (.error "Couldn't connect to server", requests + 1)

/-- The libraries of a test without an answer. -/
def exampleLibraries : RestLibraries where
  security := ⟨.standard, .rfc4648⟩
  conversions := .ofDigits
  parseJson _ := none
  objectText := objectText
  what _ := ""

/-- The price that cannot be had is survived, and the trailing order is not. -/
theorem run_ended_trailing :
    let strategy := trailOnKraken ⟨"BTC", "GBP"⟩
    let w : LiveWorld 1 ℕ := ⟨fun _ => .kraken ⟨"key", []⟩, 0⟩
    let answer := answer exampleLibraries downNetwork
    let run := run exampleLibraries downNetwork strategy
    Fault.otherException.isMbException = false ∧
      ∃ k < 5, ∃ state' w', run k 0 w = (.ok (), state', w') ∧
        ((strategy state').run answer w').1.1 = .error .otherException ∧
        ((∀ call, (call, .error .otherException) ∉ (strategy state').transcript answer w') ∨
          ∃ call v, (call, .error .otherException) ∈ (strategy state').transcript answer w' ∧
            After exampleLibraries downNetwork w' v ∧
            (v.apis call.exchange).Blamed exampleLibraries downNetwork call.call v.network) :=
  run_ended 5 rfl

end LiveWorld

end MarketBlocks
