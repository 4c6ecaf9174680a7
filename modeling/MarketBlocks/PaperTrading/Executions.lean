import MarketBlocks.PaperTrading.Session

/-!
# What a session executes

The calls of `try_fill_order` in a session, each with the account that it meets, and from them the
calls of `execute_order`, whether or not these throw.
-/

namespace MarketBlocks

open Library

namespace PaperTradeApi

variable {feed : Feed} {id : String} {request : OrderRequest} {api : PaperTradeApi}

end PaperTradeApi

namespace Session

/-- The evaluations of the calls that follow on a session. -/
def evaluationsFrom : Session → List (Feed × Call) → List Evaluation
  | _, [] => []
  | s, input :: rest => s.api.callEvaluations input.1 input.2 ++ evaluationsFrom (s.step input) rest

/-- The evaluations of a session from its start. -/
def runEvaluations (config : PaperTradingConfig) (inputs : List (Feed × Call)) : List Evaluation :=
  evaluationsFrom (start config) inputs

/-- What holds of the evaluations of each call in a well-formed session holds of all. -/
theorem forall_evaluationsFrom {P : Session → Prop} {Q : Evaluation → Prop} {inputs : List (Feed × Call)}
    (hcall : ∀ s : Session, s.WellFormed → P s → ∀ input ∈ inputs,
      ∀ e ∈ s.api.callEvaluations input.1 input.2, Q e)
    (hstep : ∀ s : Session, s.WellFormed → P s → ∀ input ∈ inputs, P (s.step input)) {s : Session}
    (hwell : s.WellFormed) (hP : P s) : ∀ e ∈ s.evaluationsFrom inputs, Q e := by
  induction inputs generalizing s with
  | nil => exact fun e he => absurd he List.not_mem_nil
  | cons input rest ih =>
    intro e he
    rcases List.mem_append.mp he with he | he
    · exact hcall s hwell hP input List.mem_cons_self e he
    · apply ih (fun s hwell hP i hi => hcall s hwell hP i (List.mem_cons_of_mem _ hi))
        (fun s hwell hP i hi => hstep s hwell hP i (List.mem_cons_of_mem _ hi))
        (hwell.step input) (hstep s hwell hP input List.mem_cons_self) e he

/-- What a call keeps whose evaluations satisfy `Q` is kept by a run whose evaluations all do. -/
theorem invariant_of_evaluationsFrom {P : Session → Prop} {Q : Evaluation → Prop}
    (hstep : ∀ s : Session, s.WellFormed → P s → ∀ input : Feed × Call,
      (∀ e ∈ s.api.callEvaluations input.1 input.2, Q e) → P (s.step input)) {s : Session}
    {inputs : List (Feed × Call)} (hall : ∀ e ∈ s.evaluationsFrom inputs, Q e)
    (hwell : s.WellFormed) (hP : P s) : P (inputs.foldl step s) := by
  induction inputs generalizing s with
  | nil => exact hP
  | cons input rest ih =>
    have hhere := hstep s hwell hP input fun e he => hall e (List.mem_append_left _ he)
    exact ih (fun e he => hall e (List.mem_append_right _ he)) (hwell.step input) hhere

/-- The evaluations of the first part of a run are among those of the run. -/
theorem evaluationsFrom_append (s : Session) (before after : List (Feed × Call)) :
    s.evaluationsFrom (before ++ after) =
      s.evaluationsFrom before ++ (before.foldl step s).evaluationsFrom after := by
  induction before generalizing s with
  | nil => rfl
  | cons input rest ih =>
    rw [List.cons_append, evaluationsFrom, evaluationsFrom, ih, List.append_assoc]
    rfl

/-- An order that a call evaluates is open when it is, and is new or was issued before. -/
theorem WellFormed.of_mem_evaluations {s : Session} (hwell : s.WellFormed) {feed : Feed} {call : Call}
    {e : Evaluation} (he : e ∈ s.api.callEvaluations feed call) :
    e.feed = feed ∧ e.api.fee = s.api.fee ∧ e.api.openOrders.lookup e.id = some e.request ∧
      (call.request? = some e.request ∨ s.requests.lookup e.id = some e.request) := by
  cases call with
  | addOrder request | addOrderConfirm request =>
    cases List.mem_singleton.mp he
    exact ⟨rfl, rfl, hwell.register_lookup request, .inl rfl⟩
  | cancelOrder => cases he
  | tradeUpdate pair =>
    obtain ⟨_, _, hfeed, hnow⟩ := PaperTradeApi.of_mem_walkEvaluations (P := fun _ => True)
      (fun _ _ _ _ _ _ _ => trivial) trivial he
    obtain ⟨hfee, hbefore⟩ := PaperTradeApi.lookup_of_mem_walkEvaluations he
    exact ⟨hfeed, hfee, hnow, .inr (hwell.open_request e.id e.request hbefore)⟩

/-- The fee stays as it was configured. -/
theorem WellFormed.step_fee {s : Session} (hwell : s.WellFormed) (input : Feed × Call) :
    (s.step input).api.fee = s.api.fee := by
  apply hwell.step_induction (P := fun s' => s'.api.fee = s.api.fee) rfl
  · exact fun s' _ h _ => h
  · intro s' _ h feed id request result api' _ hcase
    cases hcase <;> exact h
  · exact fun s' h _ _ => h
  · exact fun s' _ h _ _ => h

/-- The orders that are evaluated are those of the calls, and so are the feeds; the fee is the
configured one. -/
theorem evaluations_of_inputs {config : PaperTradingConfig} {inputs : List (Feed × Call)}
    {R : OrderRequest → Prop}
    (hinputs : ∀ input ∈ inputs, ∀ request, input.2.request? = some request → R request) :
    ∀ e ∈ runEvaluations config inputs,
      R e.request ∧ e.api.fee = config.fee ∧ ∃ input ∈ inputs, e.feed = input.1 := by
  apply forall_evaluationsFrom (P := fun s => s.api.fee = config.fee ∧
    ∀ id request, s.requests.lookup id = some request → R request)
    (Q := fun e => R e.request ∧ e.api.fee = config.fee ∧ ∃ input ∈ inputs, e.feed = input.1)
  · rintro s hwell ⟨hconfig, hrequests⟩ input hinput e he
    obtain ⟨hfeed, hsame, hopen, hissued⟩ := hwell.of_mem_evaluations he
    exact ⟨hissued.elim (hinputs input hinput _) (hrequests e.id e.request), hsame.trans hconfig,
      input, hinput, hfeed⟩
  · rintro s hwell ⟨hconfig, hrequests⟩ input hinput
    refine ⟨(hwell.step_fee input).trans hconfig, fun id request hlookup => ?_⟩
    rw [step] at hlookup
    cases hcall : input.2.request? with
    | none =>
      rw [hcall] at hlookup
      exact hrequests id request hlookup
    | some new =>
      rw [hcall] at hlookup
      simp only [UnorderedMap.lookup_insert_eq] at hlookup
      split at hlookup
      · cases hlookup
        exact hinputs input hinput request hcall
      · exact hrequests id request hlookup
  · exact WellFormed.start config
  · exact ⟨rfl, fun id request h => by cases h⟩

end Session

end MarketBlocks
