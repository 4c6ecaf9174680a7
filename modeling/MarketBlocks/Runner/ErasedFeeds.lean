import MarketBlocks.Runner.NotifyHandlers

/-!
# A walk over a set that handlers erase from

What the calls of the handlers make of the set is seen from the set and the calls. The walk delivers
every message exactly when it comes to every entry that has handlers, when the message of each can be
read, and when the calls made in answer to it insert nothing and leave the entry itself in the set.
-/

namespace MarketBlocks

open Library

/-- The set of subscriptions behind a call. -/
def HandlerCall.apply (subscriptions : List UniqueWebsocketSubscription) :
    HandlerCall → List UniqueWebsocketSubscription
  | .subscribe subscription => BackTest.subscribe subscription.val.canonical subscriptions
  | .unsubscribe subscription => BackTest.unsubscribe subscription.canonical subscriptions
  | .addOrder request =>
    if .createTradeSub request.pair ∈ subscriptions then subscriptions
    else subscriptions ++ [.createTradeSub request.pair]
  | .cancelOrder _ => subscriptions

/-- The set behind some calls. -/
def subscriptionsAfter (subscriptions : List UniqueWebsocketSubscription) (calls : List HandlerCall) :
    List UniqueWebsocketSubscription :=
  calls.foldl HandlerCall.apply subscriptions

/-- None of the calls, made one after the other, inserts into the set. -/
def InsertNothing : List UniqueWebsocketSubscription → List HandlerCall → Prop :=
  EveryStep HandlerCall.apply fun subscriptions call => call.apply subscriptions ⊆ subscriptions

namespace Notification

open BackTest

variable {w : BackTest} {s : Notification} {handlers : UpdateHandlers}
  {subscription : UniqueWebsocketSubscription} {subscriptions : List UniqueWebsocketSubscription}

/-! ## Calls -/

/-- A call does to the set what it does to any state with that set. -/
theorem subscriptions_step (w : BackTest) (call : HandlerCall) :
    (w.step call.toEvent).subscriptions = call.apply w.subscriptions := by
  cases call with
  | subscribe subscription => rfl
  | unsubscribe subscription => rfl
  | cancelOrder orderId => rfl
  | addOrder request => exact subscribeForOrder_eq w request

/-- What calls leave: the tick, the set that they make, and whether one of them has inserted. -/
structure Called (w : BackTest) (calls : List HandlerCall) (s s' : Notification) : Prop where
  tick : AtTick w s'
  subscriptions : s'.backTest.subscriptions = subscriptionsAfter s.backTest.subscriptions calls
  inserted : s'.inserted = false ↔ s.inserted = false ∧ InsertNothing s.backTest.subscriptions calls

/-- No calls leave everything as it is. -/
theorem Called.nil (h : AtTick w s) : Called w [] s s :=
  ⟨h, rfl, by simp [InsertNothing, EveryStep]⟩

/-- Calls behind calls. -/
theorem Called.append {calls calls' : List HandlerCall} {s' s'' : Notification}
    (h : Called w calls s s') (h' : Called w calls' s' s'') : Called w (calls ++ calls') s s'' where
  tick := h'.tick
  subscriptions := by
    rw [h'.subscriptions, h.subscriptions, subscriptionsAfter, subscriptionsAfter, subscriptionsAfter,
      List.foldl_append]
  inserted := by
    rw [h'.inserted, h.inserted, h.subscriptions, and_assoc]
    exact and_congr_right fun _ => (everyStep_append _ calls calls').symm

/-- A single call. -/
theorem Called.call (h : AtTick w s) (call : HandlerCall) : Called w [call] s (s.call call) where
  tick := h.call call
  subscriptions := subscriptions_step s.backTest call
  inserted := by
    rw [Notification.call, subscriptions_step s.backTest call]
    simp [InsertNothing, EveryStep]

/-- The calls of a handler. -/
theorem Called.calls (h : AtTick w s) (calls : List HandlerCall) :
    Called w calls s (calls.foldl Notification.call s) := by
  induction calls generalizing s with
  | nil => exact .nil h
  | cons call rest ih => exact (Called.call h call).append (ih (h.call call))

/-- The handlers of a message, when they return. -/
theorem Called.fireHandlers (h : AtTick w s) (registered : List TradeUpdateHandler)
    (hreturns : (fireHandlers subscription registered s).1 = .ok ()) :
    Called w (registered.flatMap (·.calls subscription)) s
      (Notification.fireHandlers subscription registered s).2 := by
  induction registered generalizing s with
  | nil => exact .nil h
  | cons handler rest ih =>
    have hfired : Called w (handler.calls subscription) s (fireHandler subscription handler s).2 := by
      cases handler with
      | account => exact ⟨⟨h.cache, h.round.dataTime, h.round.stepSize, h.round.series⟩, rfl,
          by simp [fireHandler, TradeUpdateHandler.calls, InsertNothing, EveryStep]⟩
      | strategy handler =>
        rw [fireHandler]
        split
        · exact .calls h _
        · exact .calls h _
    rw [Notification.fireHandlers] at hreturns ⊢
    rw [List.flatMap_cons]
    rcases hfire : fireHandler subscription handler s with ⟨fault | _, s'⟩
    · rw [hfire] at hreturns
      cases hreturns
    · rw [hfire] at hreturns hfired
      exact hfired.append (ih hfired.tick hreturns)

/-! ## One subscription -/

/-- An entry without handlers gets no answer. -/
theorem calls_of_not_handled (h : Handled handlers subscription = false) :
    handlers.calls subscription = [] := by
  rw [UpdateHandlers.calls, on_of_not_handled h, List.flatMap_nil]

/-- A visit that returns has made the calls of the handlers. -/
theorem AtTick.visit (h : AtTick w s) (hwell : subscription.WellFormed)
    (hok : (visit handlers subscription s).1 = .ok ()) :
    Called w (handlers.calls subscription) s (Notification.visit handlers subscription s).2 := by
  cases hhandled : Handled handlers subscription with
  | false =>
    rw [visit_of_not_handled hhandled, calls_of_not_handled hhandled]
    exact .nil h
  | true =>
    have hsome := isEmpty_on_of_handled hhandled
    obtain ⟨hbounded, hround, -, -⟩ := h.reading hwell
    rw [Notification.visit, hsome] at hok ⊢
    rcases hread : readMessage subscription s.backTest.data with ⟨fault | message, data⟩
    · rw [hread] at hok
      cases hok
    · rw [hread] at hok hbounded hround
      have htick : AtTick w (s.withData data) := ⟨hbounded, h.round.trans hround⟩
      have hfired := @Called.fireHandlers w _ subscription htick (handlers.on subscription.channel)
      rcases hfire : fireHandlers subscription (handlers.on subscription.channel) (s.withData data) with
        ⟨fault | _, s'⟩
      · simp [hfire] at hok
      · rw [hfire] at hfired
        obtain ⟨htick', hsubscriptions, hinserted⟩ := hfired rfl
        simp only [Bool.false_eq_true, if_false, hfire]
        exact ⟨⟨htick'.cache, htick'.round⟩, hsubscriptions, hinserted⟩

/-! ## The walk -/

/-- The walk comes to every entry that has handlers, can read the message of each, and goes on from it:
the calls made in answer insert nothing and leave the entry where it is. -/
def Deliverable (handlers : UpdateHandlers) (w : BackTest) :
    List UniqueWebsocketSubscription → List UniqueWebsocketSubscription → Prop
  | _, [] => True
  | subscriptions, subscription :: rest =>
    if Handled handlers subscription then
      subscription ∈ subscriptions ∧ Ready w subscription ∧
        InsertNothing subscriptions (handlers.calls subscription) ∧
        subscription ∈ subscriptionsAfter subscriptions (handlers.calls subscription) ∧
        Deliverable handlers w (subscriptionsAfter subscriptions (handlers.calls subscription)) rest
    else Deliverable handlers w subscriptions rest

/-- A walk delivers one message for each entry with handlers at most. -/
theorem AtTick.length_delivered_le (h : AtTick w s) {walk : List UniqueWebsocketSubscription}
    (hwell : ∀ entry ∈ walk, entry.WellFormed) :
    (visitAll handlers walk s).2.delivered.length ≤
      s.delivered.length + (walk.filter (Handled handlers)).length := by
  induction walk generalizing s with
  | nil => exact le_rfl
  | cons subscription rest ih =>
    obtain ⟨hfirst, hrest⟩ := List.forall_mem_cons.mp hwell
    have hvisited := length_delivered_visit handlers subscription s
    have hsplit : (subscription :: rest).filter (Handled handlers) =
        [subscription].filter (Handled handlers) ++ rest.filter (Handled handlers) := by
      rw [← List.filter_append]
      rfl
    rw [hsplit, List.length_append, visitAll]
    split
    · have hlater := ih h hrest
      omega
    · rcases hvisit : Notification.visit handlers subscription s with ⟨fault | _, s'⟩
      · rw [hvisit] at hvisited
        dsimp only at hvisited ⊢
        split at hvisited <;> omega
      · rw [hvisit] at hvisited
        simp only [if_true, add_zero] at hvisited
        dsimp only
        split
        · dsimp only
          omega
        · have htick : AtTick w s' := by
            have hok : (Notification.visit handlers subscription s).1 = .ok () := by rw [hvisit]
            have hcalled := h.visit hfirst hok
            rw [hvisit] at hcalled
            exact hcalled.tick
          have hlater := ih htick hrest
          omega

/-- A deliverable walk whose handlers return delivers every message. -/
theorem AtTick.visitAll_of_deliverable (h : AtTick w s) (hinserted : s.inserted = false)
    {walk : List UniqueWebsocketSubscription} (hwell : ∀ entry ∈ walk, entry.WellFormed)
    (hdeliverable : Deliverable handlers w s.backTest.subscriptions walk)
    (hreturns : EveryStep (next handlers) (Returns handlers) s walk) :
    (visitAll handlers walk s).1 = .ok () ∧
      (visitAll handlers walk s).2.delivered.map UpdateMessage.subscription =
        s.delivered.map UpdateMessage.subscription ++ walk.filter (Handled handlers) := by
  induction walk generalizing s with
  | nil => exact ⟨rfl, by simp [visitAll]⟩
  | cons subscription rest ih =>
    obtain ⟨hfirst, hrest⟩ := List.forall_mem_cons.mp hwell
    obtain ⟨hreturn, hlater⟩ := hreturns
    rw [visitAll]
    cases hhandled : Handled handlers subscription with
    | false =>
      -- whether or not the entry is still there, nothing happens
      rw [Deliverable, hhandled, if_neg Bool.false_ne_true] at hdeliverable
      rw [next_of_not_handled hhandled] at hlater
      rw [List.filter_cons_of_neg (by simp [hhandled]), visit_of_not_handled hhandled]
      split
      · exact ih h hinserted hrest hdeliverable hlater
      · next hmem =>
        rw [not_not] at hmem
        simp only [hinserted, Bool.false_eq_true, hmem, not_true, or_self, if_false]
        exact ih h hinserted hrest hdeliverable hlater
    | true =>
      rw [Deliverable, if_pos hhandled] at hdeliverable
      obtain ⟨hmem, hready, hnothing, hstays, hdeliverable⟩ := hdeliverable
      have hok := (h.visit_eq_ok_iff hfirst hmem hhandled).mpr ⟨hready, hreturn⟩
      have hcalled := h.visit hfirst hok
      have hdelivered := h.delivered_visit hfirst hok
      rw [next, if_pos hmem] at hlater
      rw [if_neg (not_not.mpr hmem)]
      rcases hvisit : Notification.visit handlers subscription s with ⟨fault | _, s'⟩
      · rw [hvisit] at hok
        cases hok
      · rw [hvisit] at hcalled hdelivered hlater
        have hinserted' : s'.inserted = false := hcalled.inserted.mpr ⟨hinserted, hnothing⟩
        have hsubscriptions : s'.backTest.subscriptions =
            subscriptionsAfter s.backTest.subscriptions (handlers.calls subscription) :=
          hcalled.subscriptions
        have hgoes : ¬(s'.inserted = true ∨ subscription ∉ s'.backTest.subscriptions) := by
          rw [hinserted', hsubscriptions]
          simp [hstays]
        obtain ⟨hreached, hall⟩ := ih hcalled.tick hinserted' hrest (hsubscriptions ▸ hdeliverable) hlater
        simp only [if_neg hgoes]
        refine ⟨hreached, ?_⟩
        simp only at hdelivered
        rw [hall, hdelivered, List.append_assoc, ← List.filter_append]
        rfl

/-- A walk that returns and has delivered as many messages as there are entries with handlers was
deliverable, and its handlers have returned. -/
theorem AtTick.deliverable_of_visitAll (h : AtTick w s) (hinserted : s.inserted = false)
    {walk : List UniqueWebsocketSubscription} (hwell : ∀ entry ∈ walk, entry.WellFormed)
    (hok : (visitAll handlers walk s).1 = .ok ())
    (hall : s.delivered.length + (walk.filter (Handled handlers)).length ≤
      (visitAll handlers walk s).2.delivered.length) :
    Deliverable handlers w s.backTest.subscriptions walk ∧
      EveryStep (next handlers) (Returns handlers) s walk := by
  induction walk generalizing s with
  | nil => exact ⟨trivial, trivial⟩
  | cons subscription rest ih =>
    obtain ⟨hfirst, hrest⟩ := List.forall_mem_cons.mp hwell
    rw [visitAll] at hok hall
    rw [EveryStep]
    cases hhandled : Handled handlers subscription with
    | false =>
      have hreturn := returns_of_not_handled hhandled s
      rw [Deliverable, hhandled, if_neg Bool.false_ne_true, next_of_not_handled hhandled]
      rw [List.filter_cons_of_neg (by simp [hhandled]), visit_of_not_handled hhandled] at hall
      rw [visit_of_not_handled hhandled] at hok
      by_cases hmem : subscription ∈ s.backTest.subscriptions
      · simp only [hmem, hinserted, Bool.false_eq_true, not_true, or_self, if_false] at hok hall
        obtain ⟨hdeliverable, hlater⟩ := ih h hinserted hrest hok hall
        exact ⟨hdeliverable, hreturn, hlater⟩
      · simp only [hmem, not_false_eq_true, if_true] at hok hall
        obtain ⟨hdeliverable, hlater⟩ := ih h hinserted hrest hok hall
        exact ⟨hdeliverable, hreturn, hlater⟩
    | true =>
      rw [List.filter_cons_of_pos hhandled, List.length_cons] at hall
      by_cases hmem : subscription ∈ s.backTest.subscriptions
      · rw [if_neg (not_not.mpr hmem)] at hok hall
        have hiff := h.visit_eq_ok_iff hfirst hmem hhandled
        have hvisited := @AtTick.visit w s handlers subscription h hfirst
        have hmessages := @AtTick.delivered_visit w s handlers subscription h hfirst
        rw [Deliverable, if_pos hhandled, next, if_pos hmem]
        rcases hvisit : Notification.visit handlers subscription s with ⟨fault | _, s'⟩
        · rw [hvisit] at hok
          cases hok
        · rw [hvisit] at hiff hvisited hmessages hok hall
          obtain ⟨hready, hreturn⟩ := hiff.mp rfl
          have hcalled := hvisited rfl
          have hdelivered := hmessages rfl
          dsimp only at hcalled hdelivered
          have hlength := congrArg List.length hdelivered
          rw [List.filter_cons_of_pos hhandled, List.filter_nil] at hlength
          simp only [List.length_append, List.length_map, List.length_singleton] at hlength
          dsimp only at hok hall
          by_cases hgoes : s'.inserted = true ∨ subscription ∉ s'.backTest.subscriptions
          · rw [if_pos hgoes] at hok
            cases hok
          · rw [if_neg hgoes] at hok hall
            rw [not_or, not_not, Bool.not_eq_true] at hgoes
            obtain ⟨hinserted', hstays⟩ := hgoes
            have hsubscriptions : s'.backTest.subscriptions =
                subscriptionsAfter s.backTest.subscriptions (handlers.calls subscription) :=
              hcalled.subscriptions
            obtain ⟨hdeliverable, hlater⟩ := ih (s := s') hcalled.tick hinserted' hrest hok (by omega)
            rw [hsubscriptions] at hstays hdeliverable
            exact ⟨⟨hmem, hready, (hcalled.inserted.mp hinserted').2, hstays, hdeliverable⟩, hreturn,
              hlater⟩
      · -- an entry that is gone leaves one message too few
        rw [if_pos hmem] at hall
        have hfew := @AtTick.length_delivered_le w s handlers h rest hrest
        omega

end Notification

end MarketBlocks
