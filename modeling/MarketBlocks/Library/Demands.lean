import MarketBlocks.Library.Calls

/-!
# What a reader demands of its source

A reader takes a source apart step by step. A step returns, throws, or goes wrong in one particular
way, and no step is taken behind one that throws or goes wrong. The demand of a reader is what a
source must be like for its steps not to go wrong, and for all of them to return; it is put together
as the reader is.
-/

namespace MarketBlocks.Library

variable {ε σ τ α β : Type}

/-- Two steps that may be taken in either order: when one of them can go wrong, they do. -/
def beside [DecidableEq ε] (wrong : ε) (first : Except ε α) (second : Except ε β) :
    Except ε (α × β) :=
  match first, second with
  | .ok a, .ok b => .ok (a, b)
  | .ok _, .error e => .error e
  | .error e, .ok _ => .error e
  | .error e, .error e' => if e' = wrong then .error wrong else .error e

section Beside

variable [DecidableEq ε] {wrong : ε} {first : Except ε α} {second : Except ε β}

/-- Two readings go wrong when one of them does. -/
theorem beside_ne_error_iff :
    beside wrong first second ≠ .error wrong ↔ first ≠ .error wrong ∧ second ≠ .error wrong := by
  cases first with
  | ok a => cases second <;> simp [beside]
  | error e =>
    cases second with
    | ok b => simp [beside]
    | error e' => by_cases hwrong : e' = wrong <;> simp [beside, hwrong]

/-- Two readings return when both of them do. -/
theorem exists_beside_eq_ok_iff :
    (∃ values, beside wrong first second = .ok values) ↔
      (∃ a, first = .ok a) ∧ ∃ b, second = .ok b := by
  cases first with
  | ok a => cases second <;> simp [beside]
  | error e =>
    cases second with
    | ok b => simp [beside]
    | error e' => by_cases hwrong : e' = wrong <;> simp [beside, hwrong]

end Beside

/-- What a source has to be like. -/
structure Demand (σ : Type) where
  /-- No step goes wrong. -/
  Safe : σ → Prop
  /-- Every step returns. -/
  Met : σ → Prop

namespace Demand

/-- Nothing is demanded. -/
def nothing : Demand σ where
  Safe := fun _ => True
  Met := fun _ => True

/-- A demand that no source meets, by a step that goes wrong. -/
def failed : Demand σ where
  Safe := fun _ => False
  Met := fun _ => False

/-- A demand that no source has a part in. -/
def provided (p : Prop) : Demand σ where
  Safe := fun _ => p
  Met := fun _ => p

/-- One demand, and once it is met another one. -/
def next (d d' : Demand σ) : Demand σ where
  Safe := fun s => d.Safe s ∧ (d.Met s → d'.Safe s)
  Met := fun s => d.Met s ∧ d'.Met s

/-- Two demands at once. -/
def also (d d' : Demand σ) : Demand σ where
  Safe := fun s => d.Safe s ∧ d'.Safe s
  Met := fun s => d.Met s ∧ d'.Met s

/-- Demands one after another. -/
def inTurn (demands : List (Demand σ)) : Demand σ := demands.foldr next nothing

/-- Demands in any order. -/
def inAnyOrder (demands : List (Demand σ)) : Demand σ := demands.foldr also nothing

/-- A demand of the parts of a source, up to the first one that does not meet it. -/
def each (parts : σ → List τ) (d : Demand τ) : Demand σ where
  Safe := fun s => ∀ before part after, parts s = before ++ part :: after →
    (∀ earlier ∈ before, d.Met earlier) → d.Safe part
  Met := fun s => ∀ part ∈ parts s, d.Met part

/-- A demand that depends on a value that is read first. -/
def read (first : σ → Except ε τ) (d : Demand σ) (d' : τ → Demand σ) : Demand σ where
  Safe := fun s => d.Safe s ∧ ∀ value, first s = .ok value → (d' value).Safe s
  Met := fun s => ∃ value, first s = .ok value ∧ (d' value).Met s

/-- A demand of a part, which is there where it is offered or taking it throws. -/
def part (Offers : σ → Prop) (take : σ → Option τ) (d : Demand τ) : Demand σ where
  Safe := fun s => Offers s ∧ ∀ part, take s = some part → d.Safe part
  Met := fun s => ∃ part, take s = some part ∧ d.Met part

/-- A demand of a part, if it is there. -/
def optional (take : σ → Option τ) (d : Demand τ) : Demand σ where
  Safe := fun s => ∀ part, take s = some part → d.Safe part
  Met := fun s => ∀ part, take s = some part → d.Met part

/-- A demand that depends on a test. -/
def either (Test : σ → Prop) (d d' : Demand σ) : Demand σ where
  Safe := fun s => (Test s → d.Safe s) ∧ (¬Test s → d'.Safe s)
  Met := fun s => (Test s → d.Met s) ∧ (¬Test s → d'.Met s)

/-- The demands of the turns of a loop, up to the first one that is not met. -/
def loop (turns : σ → ℕ) (d : ℕ → Demand σ) : Demand σ where
  Safe := fun s => ∀ i < turns s, (∀ j < i, (d j).Met s) → (d i).Safe s
  Met := fun s => ∀ i < turns s, (d i).Met s

/-- A demand of a part of the source. -/
def within (part : σ → τ) (d : Demand τ) : Demand σ where
  Safe := fun s => d.Safe (part s)
  Met := fun s => d.Met (part s)

end Demand

/-- A reader makes a demand: a source is safe exactly when reading it does not go wrong, and meets
the demand exactly when reading it returns. -/
structure Makes (wrong : ε) (reader : σ → Except ε α) (d : Demand σ) : Prop where
  safe : ∀ s, reader s ≠ .error wrong ↔ d.Safe s
  met : ∀ s, (∃ value, reader s = .ok value) ↔ d.Met s

/-- A reader is guarded by a condition when it goes wrong exactly where this does not hold. -/
def Guards (wrong : ε) (reader : σ → Except ε α) (Safe : σ → Prop) : Prop :=
  ∀ s, reader s ≠ .error wrong ↔ Safe s

namespace Guards

variable {wrong : ε} {d : Demand σ} {first : σ → Except ε τ} {rest : τ → σ → Except ε α}

/-- A reader of a part. -/
theorem part {Offers : σ → Prop} {take : σ → Option τ} {step : σ → Except ε τ}
    (hsafe : ∀ s, step s ≠ .error wrong ↔ Offers s)
    (hstep : ∀ s part, step s = .ok part ↔ take s = some part) {reader : τ → Except ε α}
    {d : Demand τ} (h : Guards wrong reader d.Safe) :
    Guards wrong (fun s => step s >>= reader) (Demand.part Offers take d).Safe := by
  intro s
  change (step s >>= reader) ≠ _ ↔ Offers s ∧ ∀ part, take s = some part → d.Safe part
  simp only [← hsafe, ← hstep]
  cases step s with
  | ok part =>
    constructor
    · exact fun hne => ⟨fun heq => (by cases heq), fun _ heq => Except.ok.inj heq ▸ (h part).mp hne⟩
    · exact fun hall => (h part).mpr (hall.2 part rfl)
  | error fault =>
    constructor
    · exact fun hne => ⟨fun heq => hne (Except.error.inj heq ▸ rfl), fun _ heq => (by cases heq)⟩
    · exact fun hall heq => hall.1 (Except.error.inj heq ▸ rfl)

/-- Steps that never go wrong, after one that may. -/
theorem ending (h : Makes wrong first d) (hnext : ∀ value s, rest value s ≠ .error wrong) :
    Guards wrong (fun s => first s >>= fun value => rest value s) d.Safe := by
  intro s
  change (first s >>= fun value => rest value s) ≠ _ ↔ _
  rw [← h.safe]
  cases first s with
  | ok value => exact iff_of_true (hnext value s) (fun heq => by cases heq)
  | error fault =>
    exact ⟨fun hne heq => hne (Except.error.inj heq ▸ rfl),
      fun hne heq => hne (Except.error.inj heq ▸ rfl)⟩

/-- A step, and then others that depend on what it has read. -/
theorem read {d' : τ → Demand σ} (h : Makes wrong first d)
    (hnext : ∀ value, Guards wrong (rest value) (d' value).Safe) :
    Guards wrong (fun s => first s >>= fun value => rest value s) (d.read first d').Safe := by
  intro s
  change (first s >>= fun value => rest value s) ≠ _ ↔
    d.Safe s ∧ ∀ value, first s = .ok value → (d' value).Safe s
  rw [← h.safe]
  cases first s with
  | ok value =>
    constructor
    · exact fun hne => ⟨fun heq => (by cases heq),
        fun _ heq => Except.ok.inj heq ▸ (hnext value s).mp hne⟩
    · exact fun hsafe => (hnext value s).mpr (hsafe.2 value rfl)
  | error fault =>
    constructor
    · exact fun hne => ⟨fun heq => hne (Except.error.inj heq ▸ rfl), fun _ heq => (by cases heq)⟩
    · exact fun hsafe heq => hsafe.1 (Except.error.inj heq ▸ rfl)

/-- A step, and then others that do not depend on what it has read. -/
theorem next {d' : Demand σ} (h : Makes wrong first d)
    (hnext : ∀ value, Guards wrong (rest value) d'.Safe) :
    Guards wrong (fun s => first s >>= fun value => rest value s) (d.next d').Safe := by
  intro s
  rw [Guards.read h hnext]
  change (d.Safe s ∧ ∀ value, first s = .ok value → d'.Safe s) ↔ d.Safe s ∧ (d.Met s → d'.Safe s)
  rw [← h.met, forall_exists_index]

/-- A branch. -/
theorem either {Test : σ → Prop} [DecidablePred Test] {first second : σ → Except ε α}
    {d' : Demand σ} (h : Guards wrong first d.Safe) (h' : Guards wrong second d'.Safe) :
    Guards wrong (fun s => if Test s then first s else second s) (Demand.either Test d d').Safe := by
  intro s
  change (if Test s then first s else second s) ≠ _ ↔
    (Test s → d.Safe s) ∧ (¬Test s → d'.Safe s)
  by_cases htest : Test s
  · simp only [htest, if_true, true_imp_iff, not_true_eq_false, false_imp_iff, and_true]
    exact h s
  · simp only [htest, if_false, false_imp_iff, not_false_eq_true, true_imp_iff, true_and]
    exact h' s

/-- A branch that does not depend on the source. -/
theorem ite {p : Prop} [Decidable p] {first second : σ → Except ε α} {d' : Demand σ}
    (h : Guards wrong first d.Safe) (h' : Guards wrong second d'.Safe) :
    Guards wrong (fun s => if p then first s else second s) (if p then d else d').Safe := by
  split
  · exact h
  · exact h'

/-- Steps that never go wrong. -/
theorem never {reader : σ → Except ε α} (h : ∀ s, reader s ≠ .error wrong) :
    Guards wrong reader (Demand.nothing : Demand σ).Safe :=
  fun s => iff_of_true (h s) trivial

end Guards

namespace Makes

variable {wrong : ε} {d d' : Demand σ}

/-- A value that is given demands nothing. -/
theorem pure (value : σ → α) : Makes wrong (fun s => .ok (value s)) Demand.nothing where
  safe := fun s => iff_of_true (fun h => by cases h) trivial
  met := fun s => iff_of_true ⟨value s, rfl⟩ trivial

/-- A reader that always returns. -/
theorem returns {reader : σ → Except ε α} (h : ∀ s, ∃ value, reader s = .ok value) :
    Makes wrong reader Demand.nothing where
  safe := fun s => by
    obtain ⟨value, hvalue⟩ := h s
    exact iff_of_true (fun heq => by rw [hvalue] at heq; cases heq) trivial
  met := fun s => iff_of_true (h s) trivial

/-- A reader that is safe with whatever value a first step reads. -/
theorem read {first : σ → Except ε τ} {next : τ → σ → Except ε α} {d' : τ → Demand σ}
    (h : Makes wrong first d) (hnext : ∀ value, Makes wrong (next value) (d' value)) :
    Makes wrong (fun s => first s >>= fun value => next value s) (d.read first d') where
  safe := Guards.read h fun value => (hnext value).safe
  met := by
    intro s
    change _ ↔ ∃ value, first s = .ok value ∧ (d' value).Met s
    constructor
    · rintro ⟨result, hresult⟩
      obtain ⟨value, hvalue, hnextvalue⟩ := exists_of_bind_eq_ok hresult
      exact ⟨value, hvalue, ((hnext value).met s).mp ⟨result, hnextvalue⟩⟩
    · rintro ⟨value, hvalue, hmet⟩
      obtain ⟨result, hresult⟩ := ((hnext value).met s).mpr hmet
      refine ⟨result, ?_⟩
      rw [hvalue]
      exact hresult

/-- A reader of a part. -/
theorem part {Offers : σ → Prop} {take : σ → Option τ} {step : σ → Except ε τ}
    (hsafe : ∀ s, step s ≠ .error wrong ↔ Offers s)
    (hstep : ∀ s part, step s = .ok part ↔ take s = some part) {reader : τ → Except ε α}
    {d : Demand τ} (h : Makes wrong reader d) :
    Makes wrong (fun s => step s >>= reader) (Demand.part Offers take d) where
  safe := Guards.part hsafe hstep h.safe
  met := by
    intro s
    change _ ↔ ∃ part, take s = some part ∧ d.Met part
    simp only [← hstep, ← h.met]
    constructor
    · rintro ⟨result, hresult⟩
      obtain ⟨part, hpart, hread⟩ := exists_of_bind_eq_ok hresult
      exact ⟨part, hpart, result, hread⟩
    · rintro ⟨part, hpart, result, hread⟩
      refine ⟨result, ?_⟩
      rw [hpart]
      exact hread

/-- A reader of a part that need not be there. -/
theorem optional (take : σ → Option τ) {reader : τ → Except ε α} {absent : α} {d : Demand τ}
    (h : Makes wrong reader d) :
    Makes wrong (fun s => (take s).elim (.ok absent) reader) (Demand.optional take d) where
  safe := by
    intro s
    change _ ↔ ∀ part, take s = some part → d.Safe part
    cases take s with
    | none => exact iff_of_true (fun heq => by cases heq) (fun _ heq => by cases heq)
    | some part =>
      rw [Option.elim_some, h.safe]
      exact ⟨fun hsafe _ heq => Option.some.inj heq ▸ hsafe, fun hall => hall part rfl⟩
  met := by
    intro s
    change _ ↔ ∀ part, take s = some part → d.Met part
    cases take s with
    | none => exact iff_of_true ⟨absent, rfl⟩ (fun _ heq => by cases heq)
    | some part =>
      rw [Option.elim_some, h.met]
      exact ⟨fun hmet _ heq => Option.some.inj heq ▸ hmet, fun hall => hall part rfl⟩

/-- A step, and then others that do not depend on what it has read. -/
theorem next {first : σ → Except ε τ} {next : τ → σ → Except ε α} (h : Makes wrong first d)
    (hnext : ∀ value, Makes wrong (next value) d') :
    Makes wrong (fun s => first s >>= fun value => next value s) (d.next d') where
  safe := Guards.next h fun value => (hnext value).safe
  met := by
    intro s
    rw [(h.read hnext).met]
    change (∃ value, first s = .ok value ∧ d'.Met s) ↔ d.Met s ∧ d'.Met s
    rw [exists_and_right, h.met]

/-- A step, and then others that always return. -/
theorem last {first : σ → Except ε τ} {next : τ → σ → Except ε α} (h : Makes wrong first d)
    (hnext : ∀ value s, ∃ result, next value s = .ok result) :
    Makes wrong (fun s => first s >>= fun value => next value s) d := by
  have hthen := h.next fun value => Makes.returns (hnext value)
  constructor
  · intro s
    rw [hthen.safe]
    exact and_iff_left fun _ => trivial
  · intro s
    rw [hthen.met]
    exact and_iff_left trivial

/-- The last one of the steps in turn. -/
theorem ending {reader : σ → Except ε α} (h : Makes wrong reader d) :
    Makes wrong reader (d.next .nothing) where
  safe := fun s => (h.safe s).trans (and_iff_left fun _ => trivial).symm
  met := fun s => (h.met s).trans (and_iff_left trivial).symm

/-- The last one of the steps in any order. -/
theorem alone {reader : σ → Except ε α} (h : Makes wrong reader d) :
    Makes wrong reader (d.also .nothing) where
  safe := fun s => (h.safe s).trans (and_iff_left trivial).symm
  met := fun s => (h.met s).trans (and_iff_left trivial).symm

/-- Steps in any order. -/
theorem also [DecidableEq ε] {first : σ → Except ε α} {second : σ → Except ε β}
    (h : Makes wrong first d) (h' : Makes wrong second d') :
    Makes wrong (fun s => beside wrong (first s) (second s)) (d.also d') where
  safe := by
    intro s
    change _ ↔ d.Safe s ∧ d'.Safe s
    rw [beside_ne_error_iff, h.safe, h'.safe]
  met := by
    intro s
    change _ ↔ d.Met s ∧ d'.Met s
    rw [exists_beside_eq_ok_iff, h.met, h'.met]

/-- When all parts have been read each has a value. -/
theorem exists_of_mem_mapM {body : τ → Except ε α} {parts : List τ} {values : List α}
    (h : parts.mapM body = .ok values) {part : τ} (hpart : part ∈ parts) :
    ∃ value, body part = .ok value := by
  rw [mapM_eq_ok_iff] at h
  induction h with
  | nil => cases hpart
  | cons hvalue _ ih =>
    rcases List.mem_cons.mp hpart with heq | hmem
    · rw [heq]
      exact ⟨_, hvalue⟩
    · exact ih hmem

/-- What holds at every place of a list, as long as something holds before it. -/
theorem forall_place_cons {P Q : τ → Prop} (first : τ) (rest : List τ) :
    (∀ before part after, first :: rest = before ++ part :: after →
      (∀ earlier ∈ before, P earlier) → Q part) ↔
      Q first ∧ (P first → ∀ before part after, rest = before ++ part :: after →
        (∀ earlier ∈ before, P earlier) → Q part) := by
  constructor
  · intro hall
    refine ⟨hall [] first rest rfl (fun _ hmem => absurd hmem List.not_mem_nil), ?_⟩
    intro hfirst before part after heq hbefore
    apply hall (first :: before) part after (congrArg _ heq)
    exact List.forall_mem_cons.mpr ⟨hfirst, hbefore⟩
  · rintro ⟨hfirst, hrest⟩ before part after heq hbefore
    cases before with
    | nil =>
      cases heq
      exact hfirst
    | cons earlier before =>
      cases heq
      rw [List.forall_mem_cons] at hbefore
      exact hrest hbefore.1 before part after rfl hbefore.2

/-- A loop goes wrong at the first part that does, unless one before it throws. -/
theorem mapM_ne_error_iff {body : τ → Except ε α} {d : Demand τ} (h : Makes wrong body d)
    {parts : List τ} :
    parts.mapM body ≠ .error wrong ↔ ∀ before part after, parts = before ++ part :: after →
      (∀ earlier ∈ before, d.Met earlier) → d.Safe part := by
  induction parts with
  | nil =>
    refine iff_of_true (fun heq => by cases heq) ?_
    intro before part after heq
    simp at heq
  | cons first rest ih =>
    rw [forall_place_cons, ← ih, ← h.safe, ← h.met, List.mapM_cons]
    cases hfirst : body first with
    | error fault => simp [bind, Except.bind]
    | ok value =>
      cases hrest : rest.mapM body with
      | error fault => simp [bind, Except.bind]
      | ok values => simp [bind, Except.bind, Pure.pure, Except.pure]

/-- A loop goes wrong at the first step that does, if it gets there. -/
theorem mapM_range_ne_error_iff {body : ℕ → Except ε α} {n : ℕ} :
    (List.range n).mapM body ≠ .error wrong ↔
      ∀ i < n, (∀ j < i, ∃ value, body j = .ok value) → body i ≠ .error wrong := by
  induction n with
  | zero => exact iff_of_true (fun heq => by cases heq) (fun i hi => absurd hi (Nat.not_lt_zero i))
  | succ n ih =>
    rw [List.range_succ, List.mapM_append]
    constructor
    · intro hne i hi hbefore hwrong
      cases Nat.lt_succ_iff_lt_or_eq.mp hi with
      | inl hlt =>
        apply ih.mp _ i hlt hbefore hwrong
        intro heq
        rw [heq] at hne
        exact hne rfl
      | inr heq =>
        have hreturn : ∀ j ∈ List.range n, ∃ value, body j = .ok value :=
          fun j hj => hbefore j (heq ▸ List.mem_range.mp hj)
        obtain ⟨values, hvalues⟩ := exists_mapM_eq_ok hreturn
        apply hne
        rw [hvalues, List.mapM_cons, ← heq, hwrong]
        rfl
    · intro hall
      have hfirst := ih.mpr fun i hi => hall i (Nat.lt_succ_of_lt hi)
      cases hvalues : (List.range n).mapM body with
      | error fault =>
        rw [hvalues] at hfirst
        exact fun heq => hfirst heq
      | ok values =>
        have hbefore : ∀ j < n, ∃ value, body j = .ok value :=
          fun j hj => exists_of_mem_mapM hvalues (List.mem_range.mpr hj)
        have hlast := hall n (Nat.lt_succ_self n) hbefore
        cases hvalue : body n with
        | error fault =>
          rw [hvalue] at hlast
          rw [List.mapM_cons, hvalue]
          exact fun heq => hlast (congrArg Except.error (Except.error.inj heq))
        | ok value =>
          rw [List.mapM_cons, hvalue]
          exact fun heq => by cases heq

/-- A loop over the parts of a source. -/
theorem each {parts : σ → List τ} {body : τ → Except ε α} {d : Demand τ} (h : Makes wrong body d) :
    Makes wrong (fun s => (parts s).mapM body) (d.each parts) where
  safe := fun s => mapM_ne_error_iff h
  met := by
    intro s
    change _ ↔ ∀ part ∈ parts s, d.Met part
    simp only [← h.met]
    exact ⟨fun ⟨values, hvalues⟩ part hpart => exists_of_mem_mapM hvalues hpart, exists_mapM_eq_ok⟩

/-- The turns of a loop go wrong at the first one that does, unless one before it throws. -/
theorem loop {turns : σ → ℕ} {body : ℕ → σ → Except ε α} {d : ℕ → Demand σ}
    (h : ∀ i, Makes wrong (body i) (d i)) :
    Makes wrong (fun s => (List.range (turns s)).mapM fun i => body i s) (Demand.loop turns d) where
  safe := by
    intro s
    change _ ↔ ∀ i < turns s, (∀ j < i, (d j).Met s) → (d i).Safe s
    simp only [← (h _).safe, ← (h _).met]
    exact mapM_range_ne_error_iff
  met := by
    intro s
    change _ ↔ ∀ i < turns s, (d i).Met s
    simp only [← (h _).met, ← List.mem_range]
    exact ⟨fun ⟨values, hvalues⟩ i hi => exists_of_mem_mapM hvalues hi, exists_mapM_eq_ok⟩

/-- A branch that does not depend on the source. -/
theorem ite {p : Prop} [Decidable p] {first second : σ → Except ε α} (h : Makes wrong first d)
    (h' : Makes wrong second d') :
    Makes wrong (fun s => if p then first s else second s) (if p then d else d') := by
  split
  · exact h
  · exact h'

/-- A branch. -/
theorem either {Test : σ → Prop} [DecidablePred Test] {first second : σ → Except ε α}
    (h : Makes wrong first d) (h' : Makes wrong second d') :
    Makes wrong (fun s => if Test s then first s else second s) (Demand.either Test d d') where
  safe := Guards.either h.safe h'.safe
  met := by
    intro s
    change _ ↔ (Test s → d.Met s) ∧ (¬Test s → d'.Met s)
    by_cases htest : Test s
    · simp only [htest, if_true, true_imp_iff, not_true_eq_false, false_imp_iff, and_true, h.met]
    · simp only [htest, if_false, false_imp_iff, not_false_eq_true, true_imp_iff, true_and, h'.met]

/-- A reader of a part demands it of the part. -/
theorem within {reader : τ → Except ε α} {d : Demand τ} (h : Makes wrong reader d) (part : σ → τ) :
    Makes wrong (fun s => reader (part s)) (d.within part) where
  safe := fun s => h.safe (part s)
  met := fun s => h.met (part s)

end Makes

end MarketBlocks.Library
