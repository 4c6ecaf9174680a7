import MarketBlocks.Library.Runs
import MarketBlocks.Reporting.FlushedTrades

/-!
# The live test runner

`live_test_runner::run` repeats the strategy until it is stopped, flushes the closed orders after
each round that returns, and flushes once more before the report. The threads of the websocket
streams evaluate orders all the while: between the calls of the strategy, between the exchanges of a
flush, and until the report.
-/

namespace MarketBlocks

open Library

/-- A call of the strategy or a trade update of a stream, on one of the exchanges, with what the
stream of the exchange shows while it runs. -/
structure AccountCall where
  exchange : ℕ
  feed : Feed
  call : Call

/-- One round: the calls up to the end of `run_iteration`, the `mb_exception` it ends with, the calls
after each exchange of the flush, and the calls while the runner sleeps. -/
structure LiveRound where
  calls : List AccountCall
  raises : Option String
  meanwhile : ℕ → List AccountCall
  asleep : List AccountCall

/-- The paper accounts of the exchanges and the logger. -/
structure LiveTest where
  apis : List PaperTradeApi
  logger : TestLogger

namespace LiveTest

/-- The state in which `run` has created its logger. -/
def start (apis : List PaperTradeApi) : LiveTest := ⟨apis, .create apis.length⟩

/-- A call of one account. -/
def performCall (w : LiveTest) (call : AccountCall) : LiveTest :=
  { w with apis := w.apis.modify call.exchange fun api => (api.perform call.feed call.call).2 }

/-- The turn of one exchange in the loop of `flush_trades`. -/
def flushNext (k : ℕ) (w : LiveTest) : LiveTest := { w with logger := w.logger.flushNext w.apis k }

/-- `flush_trades` up to the exchange with the given position. -/
def flushUpTo (meanwhile : ℕ → List AccountCall) : ℕ → LiveTest → LiveTest
  | 0, w => w
  | k + 1, w => (meanwhile k).foldl performCall (flushNext k (flushUpTo meanwhile k w))

/-- `flush_trades`, during which the accounts go on. -/
def flushTrades (meanwhile : ℕ → List AccountCall) (w : LiveTest) : LiveTest :=
  flushUpTo meanwhile w.logger.exchangeData.length w

/-- One round of the loop of `run`. -/
def round (w : LiveTest) (r : LiveRound) : LiveTest :=
  let w := r.calls.foldl performCall w
  let w :=
    match r.raises with
    | some _ => w
    | none => flushTrades r.meanwhile w
  r.asleep.foldl performCall w

/-- `run` up to its last flush: the rounds, and the calls until the thread that waits for the stop has
been joined. -/
def runLoop (rounds : List LiveRound) (stopping : List AccountCall) (w : LiveTest) : LiveTest :=
  stopping.foldl performCall (rounds.foldl round w)

/-- `run` up to the report. The calls behind the last exchange of the flush are those until the
report is generated. -/
def run (rounds : List LiveRound) (stopping : List AccountCall) (meanwhile : ℕ → List AccountCall)
    (w : LiveTest) : LiveTest :=
  flushTrades meanwhile (runLoop rounds stopping w)

/-! ## The trades file of a run -/

variable {w : LiveTest} {meanwhile : ℕ → List AccountCall} {k : ℕ}

/-- The trades file of the run so far is as far as its indices. -/
def Flushed (w : LiveTest) : Prop := w.logger.Flushed w.apis

/-- A call adds no account. -/
theorem length_performCall (call : AccountCall) : (w.performCall call).apis.length = w.apis.length :=
  List.length_modify _ _ _

/-- A call takes back no closed order. -/
theorem closedOf_performCall (call : AccountCall) (k : ℕ) :
    closedOf w.apis k <+: closedOf (w.performCall call).apis k := by
  rw [closedOf, closedOf, performCall, List.getElem?_modify]
  cases w.apis[k]? with
  | none => exact List.prefix_rfl
  | some api =>
    by_cases hk : call.exchange = k
    · simp only [if_pos hk]
      exact PaperTradeApi.perform_closedOrders call.call api
    · simp only [if_neg hk]
      exact List.prefix_rfl

/-- Calls leave the logger alone and only close orders. -/
theorem performCalls_spec (w : LiveTest) (calls : List AccountCall) :
    (calls.foldl performCall w).logger = w.logger ∧
      (calls.foldl performCall w).apis.length = w.apis.length ∧
      ∀ k, closedOf w.apis k <+: closedOf (calls.foldl performCall w).apis k := by
  induction calls generalizing w with
  | nil => exact ⟨rfl, rfl, fun _ => List.prefix_rfl⟩
  | cons call rest ih =>
    obtain ⟨hlogger, hlength, hclosed⟩ := ih (w.performCall call)
    exact ⟨hlogger, hlength.trans (length_performCall call),
      fun k => (closedOf_performCall call k).trans (hclosed k)⟩

/-- What was flushed stays flushed during any calls. -/
theorem Flushed.performCalls (h : w.Flushed) (calls : List AccountCall) :
    (calls.foldl performCall w).Flushed := by
  obtain ⟨hlogger, hlength, hclosed⟩ := performCalls_spec w calls
  rw [Flushed, hlogger]
  exact TestLogger.Flushed.grow h hlength hclosed

/-- A part of a flush keeps the state of the file, and has written the exchanges it has passed as far
as they were closed when their turn came. -/
theorem Flushed.flushUpTo (h : w.Flushed) (meanwhile : ℕ → List AccountCall) (n : ℕ) :
    (LiveTest.flushUpTo meanwhile n w).Flushed ∧
      (LiveTest.flushUpTo meanwhile n w).apis.length = w.apis.length ∧
      ∀ k, k < n → (LiveTest.flushUpTo meanwhile n w).logger.indexOf k =
        (closedOf (LiveTest.flushUpTo meanwhile k w).apis k).length := by
  induction n with
  | zero => exact ⟨h, rfl, fun k hk => absurd hk (Nat.not_lt_zero k)⟩
  | succ n ih =>
    obtain ⟨hflushed, hlength, hindex⟩ := ih
    have hnext := TestLogger.Flushed.flushNext hflushed n
    have hindexNext := TestLogger.Flushed.indexOf_flushNext hflushed n
    have hstate : (flushNext n (LiveTest.flushUpTo meanwhile n w)).Flushed := hnext
    obtain ⟨hlogger, hsame, _⟩ :=
      performCalls_spec (flushNext n (LiveTest.flushUpTo meanwhile n w)) (meanwhile n)
    refine ⟨hstate.performCalls (meanwhile n), hsame.trans hlength, fun k hk => ?_⟩
    rw [LiveTest.flushUpTo, hlogger, flushNext, hindexNext]
    split
    · next heq => rw [heq]
    · exact hindex k (by omega)

/-- A flush keeps the state of the file. -/
theorem Flushed.flushTrades (h : w.Flushed) (meanwhile : ℕ → List AccountCall) :
    (LiveTest.flushTrades meanwhile w).Flushed :=
  (h.flushUpTo meanwhile _).1

/-- A round keeps the state of the file. -/
theorem Flushed.round (h : w.Flushed) (r : LiveRound) : (w.round r).Flushed := by
  have hcalls := h.performCalls r.calls
  rw [LiveTest.round]
  cases r.raises with
  | some message => exact hcalls.performCalls r.asleep
  | none => exact (hcalls.flushTrades r.meanwhile).performCalls r.asleep

/-- In every run the trades file is as far as its indices when the rounds are over. -/
theorem flushed_runLoop (apis : List PaperTradeApi) (rounds : List LiveRound)
    (stopping : List AccountCall) : (runLoop rounds stopping (start apis)).Flushed := by
  have hrounds : (rounds.foldl round (start apis)).Flushed :=
    foldl_invariant (I := Flushed) (fun _ r hw => hw.round r) rounds (TestLogger.flushed_create apis)
  exact hrounds.performCalls stopping

/-- Orders of an exchange only close while the others are flushed. -/
theorem closedOf_flushUpTo (meanwhile : ℕ → List AccountCall) {m n : ℕ} (hmn : m ≤ n) (k : ℕ) :
    closedOf (flushUpTo meanwhile m w).apis k <+: closedOf (flushUpTo meanwhile n w).apis k := by
  induction n with
  | zero =>
    rw [Nat.le_zero.mp hmn]
  | succ n ih =>
    rcases Nat.le_succ_iff.mp hmn with hle | heq
    · exact (ih hle).trans ((performCalls_spec (flushNext n (flushUpTo meanwhile n w)) (meanwhile n)).2.2 k)
    · rw [heq]

/-- The last flush of an exchange is late enough when none of its orders closes after it. -/
def FlushedLast (meanwhile : ℕ → List AccountCall) (w : LiveTest) : Prop :=
  ∀ k < w.apis.length, closedOf (flushTrades meanwhile w).apis k = closedOf (flushUpTo meanwhile k w).apis k

/-- A flush writes everything exactly when no order closes on an exchange that it has passed. -/
theorem Flushed.complete_flushTrades_iff (h : w.Flushed) :
    (LiveTest.flushTrades meanwhile w).logger.Complete (LiveTest.flushTrades meanwhile w).apis ↔
      FlushedLast meanwhile w := by
  have hcount : w.logger.exchangeData.length = w.apis.length := h.length
  obtain ⟨hflushed, hlength, hindex⟩ := h.flushUpTo meanwhile w.logger.exchangeData.length
  rw [LiveTest.flushTrades, TestLogger.Flushed.complete_iff hflushed]
  constructor
  · intro hall k hk
    have hfront := closedOf_flushUpTo (w := w) meanwhile (hcount ▸ hk.le) k
    have hsame := hall k
    rw [hindex k (hcount ▸ hk)] at hsame
    exact (hfront.eq_of_length hsame).symm
  · intro hlast k
    rcases lt_or_ge k w.apis.length with hk | hk
    · have hsame := hlast k hk
      rw [LiveTest.flushTrades] at hsame
      rw [hindex k (hcount ▸ hk), hsame]
    · have hnone : closedOf (LiveTest.flushUpTo meanwhile w.logger.exchangeData.length w).apis k = [] := by
        rw [closedOf, List.getElem?_eq_none (by omega)]
        rfl
      have hle := hflushed.index_le k
      rw [hnone] at hle ⊢
      exact Nat.le_zero.mp hle

end LiveTest

end MarketBlocks
