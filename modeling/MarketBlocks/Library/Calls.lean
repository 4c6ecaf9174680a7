import Mathlib.Data.List.Forall2

/-!
# Calls that may throw

A call on a mutable state returns or throws, and leaves a state in either case. `andThen` goes on
with the state of a call that has returned, and `forEach` is the loop over entries that are read on
the way, so that one that cannot be read ends the loop after the entries before it. What each call
keeps, in the sense of a relation between the states before and after, their compositions keep.
-/

namespace MarketBlocks.Library

variable {ε α σ : Type*}

/-- Go on after a call, unless it has thrown. -/
def andThen (first : Except ε Unit × σ) (next : σ → Except ε Unit × σ) : Except ε Unit × σ :=
  match first with
  | (.error fault, s) => (.error fault, s)
  | (.ok (), s) => next s

/-- Read a value and call with it. -/
def withRead (value : Except ε α) (next : α → σ → Except ε Unit × σ) (s : σ) : Except ε Unit × σ :=
  match value with
  | .error fault => (.error fault, s)
  | .ok value => next value s

/-- Call for each entry, in the order of the list. -/
def forEach (body : α → σ → Except ε Unit × σ) : List (Except ε α) → σ → Except ε Unit × σ
  | [], s => (.ok (), s)
  | entry :: rest, s => andThen (withRead entry body s) (forEach body rest)

/-- Every call that the loop makes satisfies `P` in the state in which it is made. -/
def EveryCall (body : α → σ → Except ε Unit × σ) (P : α → σ → Prop) : List (Except ε α) → σ → Prop
  | .ok entry :: rest, s =>
    P entry s ∧ ((body entry s).1 = .ok () → EveryCall body P rest (body entry s).2)
  | .error _ :: _, _ | [], _ => True

/-- What an invariant of the calls gives for each of them. -/
theorem everyCall_of_invariant {body : α → σ → Except ε Unit × σ} {P : α → σ → Prop} {I : σ → Prop}
    (hkeeps : ∀ entry s, I s → I (body entry s).2) (hgives : ∀ entry s, I s → P entry s)
    (entries : List (Except ε α)) {s : σ} (hstart : I s) : EveryCall body P entries s := by
  induction entries generalizing s with
  | nil => trivial
  | cons entry rest ih =>
    cases entry with
    | error fault => trivial
    | ok entry => exact ⟨hgives entry s hstart, fun _ => ih (hkeeps entry s hstart)⟩

/-- A sequence of readings has succeeded when each of them has. -/
theorem exists_of_bind_eq_ok {α β : Type _} {first : Except ε α} {next : α → Except ε β} {result : β}
    (h : (first >>= next) = .ok result) : ∃ a, first = .ok a ∧ next a = .ok result := by
  cases first with
  | error fault => cases h
  | ok a => exact ⟨a, rfl, h⟩

/-- A list of readings succeeds with the value of each of them. -/
theorem mapM_eq_ok_iff {α β : Type*} {read : α → Except ε β} {inputs : List α} {values : List β} :
    inputs.mapM read = .ok values ↔
      List.Forall₂ (fun input value => read input = .ok value) inputs values := by
  induction inputs generalizing values with
  | nil =>
    rw [List.mapM_nil, List.forall₂_nil_left_iff]
    exact ⟨fun h => (Except.ok.inj h).symm, fun h => congrArg _ h.symm⟩
  | cons input rest ih =>
    rw [List.mapM_cons, List.forall₂_cons_left_iff]
    constructor
    · intro h
      obtain ⟨value, hvalue, hrest⟩ := exists_of_bind_eq_ok h
      obtain ⟨others, hothers, hvalues⟩ := exists_of_bind_eq_ok hrest
      cases hvalues
      exact ⟨value, others, hvalue, ih.mp hothers, rfl⟩
    · rintro ⟨value, others, hvalue, hothers, rfl⟩
      rw [hvalue, ih.mpr hothers]
      rfl

/-- Readings that agree on the entries of a list read the list alike. -/
theorem mapM_congr {α β : Type*} {read other : α → Except ε β} {inputs : List α}
    (h : ∀ input ∈ inputs, read input = other input) : inputs.mapM read = inputs.mapM other := by
  induction inputs with
  | nil => rfl
  | cons input rest ih =>
    rw [List.forall_mem_cons] at h
    rw [List.mapM_cons, List.mapM_cons, h.1, ih h.2]

/-- A list of readings succeeds when each of them does. -/
theorem exists_mapM_eq_ok {α β : Type*} {read : α → Except ε β} {inputs : List α}
    (h : ∀ input ∈ inputs, ∃ value, read input = .ok value) :
    ∃ values, inputs.mapM read = .ok values := by
  induction inputs with
  | nil => exact ⟨[], rfl⟩
  | cons input rest ih =>
    rw [List.forall_mem_cons] at h
    obtain ⟨value, hvalue⟩ := h.1
    obtain ⟨values, hvalues⟩ := ih h.2
    exact ⟨value :: values, mapM_eq_ok_iff.mpr (.cons hvalue (mapM_eq_ok_iff.mp hvalues))⟩

/-- What each reading of a list determines of its value. -/
theorem map_eq_of_mapM_eq_ok {α β γ : Type*} {read : α → Except ε β} {inputs : List α}
    {values : List β} (h : inputs.mapM read = .ok values) {part : β → γ} {expected : α → γ}
    (hpart : ∀ input ∈ inputs, ∀ value, read input = .ok value → part value = expected input) :
    values.map part = inputs.map expected := by
  rw [mapM_eq_ok_iff] at h
  induction h with
  | nil => rfl
  | cons hvalue _ ih =>
    rw [List.forall_mem_cons] at hpart
    rw [List.map_cons, List.map_cons, hpart.1 _ hvalue, ih hpart.2]

/-- A list of readings that all succeed. -/
theorem mapM_eq_ok_map {α β : Type*} {read : α → Except ε β} {inputs : List α} {value : α → β}
    (h : ∀ input ∈ inputs, read input = .ok (value input)) :
    inputs.mapM read = .ok (inputs.map value) := by
  induction inputs with
  | nil => rfl
  | cons input rest ih =>
    rw [List.forall_mem_cons] at h
    rw [List.mapM_cons, h.1, ih h.2]
    rfl

/-- A list of readings that go through the first values of a list. -/
theorem mapM_range_eq_take {β : Type*} {read : ℕ → Except ε β} {values : List β} {n : ℕ}
    (hn : n ≤ values.length) (h : ∀ i value, values[i]? = some value → read i = .ok value) :
    (List.range n).mapM read = .ok (values.take n) := by
  induction n with
  | zero => rfl
  | succ n ih =>
    have hnext : values[n]? = some values[n] := List.getElem?_eq_getElem hn
    rw [List.range_succ, List.mapM_append, ih (Nat.le_of_succ_le hn), List.take_add_one, hnext,
      List.mapM_cons, h n _ hnext]
    rfl

/-! ## Outcomes -/

/-- What could not be read is what the call answers. -/
theorem withRead_fst {α : Type} (value : Except ε α) (next : α → σ → Except ε Unit × σ) (s : σ) :
    (withRead value next s).1 = value >>= fun read => (next read s).1 := by
  cases value <;> rfl

/-- The second call answers when the first one has returned. -/
theorem andThen_fst (first : Except ε Unit × σ) (next : σ → Except ε Unit × σ) :
    (andThen first next).1 = first.1 >>= fun _ => (next first.2).1 := by
  obtain ⟨fault | value, s⟩ := first <;> rfl

/-- A loop whose calls all have the same outcome, whatever the entry, has that of reading the entries
with this outcome after each. -/
theorem forEach_fst {α : Type} {body : α → σ → Except ε Unit × σ} {P : σ → Prop} {outcome : Except ε Unit}
    (hbody : ∀ entry s, P s → (body entry s).1 = outcome ∧ P (body entry s).2)
    (entries : List (Except ε α)) {s : σ} (hs : P s) :
    (forEach body entries s).1 =
      (entries.mapM fun entry => entry >>= fun _ => outcome) >>= fun _ => .ok () := by
  induction entries generalizing s with
  | nil => rfl
  | cons entry rest ih =>
    rw [forEach, andThen_fst, withRead_fst, List.mapM_cons]
    cases entry with
    | error fault => rfl
    | ok entry =>
      obtain ⟨houtcome, hafter⟩ := hbody entry s hs
      change ((body entry s).1 >>= fun _ => (forEach body rest (body entry s).2).1) = _
      rw [houtcome, ih hafter]
      cases outcome with
      | error fault => rfl
      | ok value =>
        cases rest.mapM fun entry => entry >>= fun _ => Except.ok value <;> rfl

/-- A loop does not end in a way in which none of its calls does. -/
theorem forEach_fst_ne {body : α → σ → Except ε Unit × σ} {wrong : ε}
    (hbody : ∀ entry s, (body entry s).1 ≠ .error wrong) (entries : List α) (s : σ) :
    (forEach body (entries.map .ok) s).1 ≠ .error wrong := by
  induction entries generalizing s with
  | nil => exact fun h => by cases h
  | cons entry rest ih =>
    rw [List.map_cons, forEach, andThen_fst]
    change ((body entry s).1 >>= fun _ => (forEach body (rest.map .ok) (body entry s).2).1) ≠ _
    have hfirst := hbody entry s
    cases hresult : (body entry s).1 with
    | error fault =>
      rw [hresult] at hfirst
      exact hfirst
    | ok value => exact ih (body entry s).2

variable {R : σ → σ → Prop}

/-- A relation that is carried on by both calls. -/
theorem andThen_rel (htrans : ∀ s s' s'', R s s' → R s' s'' → R s s'') {s : σ}
    {first : Except ε Unit × σ} {next : σ → Except ε Unit × σ} (hfirst : R s first.2)
    (hnext : first.1 = .ok () → R first.2 (next first.2).2) : R s (andThen first next).2 := by
  obtain ⟨fault | value, s'⟩ := first
  · exact hfirst
  · exact htrans s s' _ hfirst (hnext rfl)

/-- A relation that is carried on by what follows the reading. -/
theorem withRead_rel (hrefl : ∀ s, R s s) {value : Except ε α} {next : α → σ → Except ε Unit × σ}
    (s : σ) (hnext : ∀ read, value = .ok read → R s (next read s).2) :
    R s (withRead value next s).2 := by
  cases value with
  | error fault => exact hrefl s
  | ok read => exact hnext read rfl

/-- A relation that is carried on by every entry. -/
theorem forEach_rel (hrefl : ∀ s, R s s) (htrans : ∀ s s' s'', R s s' → R s' s'' → R s s'')
    {body : α → σ → Except ε Unit × σ} (entries : List (Except ε α))
    (hbody : ∀ entry s, .ok entry ∈ entries → R s (body entry s).2) (s : σ) :
    R s (forEach body entries s).2 := by
  induction entries generalizing s with
  | nil => exact hrefl s
  | cons entry rest ih =>
    have hrest : ∀ s, R s (forEach body rest s).2 :=
      ih fun entry s hmem => hbody entry s (List.mem_cons_of_mem _ hmem)
    refine andThen_rel htrans (withRead_rel hrefl s fun read hread => ?_) fun _ => hrest _
    exact hbody read s (hread ▸ List.mem_cons_self)

/-- Two loops that go through the same entries in lockstep return or throw alike, and what relates
their states before relates them behind. -/
theorem forEach_lockstep {τ : Type*} {S : σ → τ → Prop} {body : α → σ → Except ε Unit × σ}
    {body' : α → τ → Except ε Unit × τ} (entries : List (Except ε α))
    (hbody : ∀ entry s t, .ok entry ∈ entries → S s t →
      (body entry s).1 = (body' entry t).1 ∧ S (body entry s).2 (body' entry t).2)
    {s : σ} {t : τ} (h : S s t) :
    (forEach body entries s).1 = (forEach body' entries t).1 ∧
      S (forEach body entries s).2 (forEach body' entries t).2 := by
  induction entries generalizing s t with
  | nil => exact ⟨rfl, h⟩
  | cons entry rest ih =>
    cases entry with
    | error fault => exact ⟨rfl, h⟩
    | ok entry =>
      obtain ⟨hresult, hstates⟩ := hbody entry s t List.mem_cons_self h
      simp only [forEach, withRead]
      rcases hfirst : body entry s with ⟨fault | value, s'⟩
      · rcases hsecond : body' entry t with ⟨fault' | value', t'⟩
        · rw [hfirst, hsecond] at hresult hstates
          exact ⟨hresult, hstates⟩
        · rw [hfirst, hsecond] at hresult
          cases hresult
      · rcases hsecond : body' entry t with ⟨fault' | value', t'⟩
        · rw [hfirst, hsecond] at hresult
          cases hresult
        · rw [hfirst, hsecond] at hstates
          exact ih (fun entry s t hmem => hbody entry s t (List.mem_cons_of_mem _ hmem)) hstates

end MarketBlocks.Library
