import Mathlib.Data.List.Basic
import Mathlib.Data.List.Induction

/-!
# Runs of a deterministic machine

A machine is a step function on a state and an input, and a run is the fold of that step
over a list of inputs. Invariants are proved once per step and then hold along every run.
`EveryStep` restricts a run step by step, each input together with the state it meets. A step that
may fail ends the run, and a run returns when every step does.
-/

namespace MarketBlocks.Library

variable {σ τ ι : Type*}

/-- Every input of a run satisfies `P` in the state it is given to. -/
def EveryStep (step : σ → ι → σ) (P : σ → ι → Prop) : σ → List ι → Prop
  | _, [] => True
  | s, i :: rest => P s i ∧ EveryStep step P (step s i) rest

instance EveryStep.decidable {step : σ → ι → σ} {P : σ → ι → Prop} [∀ s i, Decidable (P s i)] :
    ∀ s inputs, Decidable (EveryStep step P s inputs)
  | _, [] => .isTrue trivial
  | s, i :: rest => @instDecidableAnd _ _ _ (EveryStep.decidable (step s i) rest)

/-- A run satisfies `P` throughout when its first part does, and its second part does from the
state that the first part reaches. -/
theorem everyStep_append {step : σ → ι → σ} {P : σ → ι → Prop} (s : σ) (before after : List ι) :
    EveryStep step P s (before ++ after) ↔
      EveryStep step P s before ∧ EveryStep step P (before.foldl step s) after := by
  induction before generalizing s with
  | nil => simp [EveryStep]
  | cons i rest ih => simp [EveryStep, ih, and_assoc]

/-- A restriction that always holds is no restriction. -/
theorem everyStep_of_forall {step : σ → ι → σ} {P : σ → ι → Prop} (h : ∀ s i, P s i) (s : σ)
    (inputs : List ι) : EveryStep step P s inputs := by
  induction inputs generalizing s with
  | nil => trivial
  | cons i rest ih => exact ⟨h s i, ih _⟩

/-- Restrictions are monotone. -/
theorem EveryStep.imp {step : σ → ι → σ} {P Q : σ → ι → Prop} (h : ∀ s i, P s i → Q s i) {s : σ}
    {inputs : List ι} (hrun : EveryStep step P s inputs) : EveryStep step Q s inputs := by
  induction inputs generalizing s with
  | nil => trivial
  | cons i rest ih => exact ⟨h s i hrun.1, ih hrun.2⟩

/-- An invariant kept by every step that satisfies `P` holds at the end of every run whose
steps do. -/
theorem EveryStep.invariant {step : σ → ι → σ} {P : σ → ι → Prop} {I : σ → Prop}
    (hstep : ∀ s i, I s → P s i → I (step s i)) {s : σ} {inputs : List ι}
    (hrun : EveryStep step P s inputs) (hstart : I s) : I (inputs.foldl step s) := by
  induction inputs generalizing s with
  | nil => exact hstart
  | cons i rest ih => exact ih hrun.2 (hstep s i hstart hrun.1)

/-- What an invariant gives for each input holds throughout a run whose steps keep it. -/
theorem EveryStep.imp_of_invariant {step : σ → ι → σ} {P Q : σ → ι → Prop} {I : σ → Prop}
    (hkeeps : ∀ s i, I s → P s i → I (step s i)) (hgives : ∀ s i, I s → P s i → Q s i) {s : σ}
    {inputs : List ι} (hrun : EveryStep step P s inputs) (hstart : I s) :
    EveryStep step Q s inputs := by
  induction inputs generalizing s with
  | nil => trivial
  | cons i rest ih => exact ⟨hgives s i hstart hrun.1, ih hrun.2 (hkeeps s i hstart hrun.1)⟩

/-- What holds of all initial parts of a run holds before its first input and of all parts from
there on. -/
theorem forall_prefix_cons {R : List ι → Prop} (i : ι) (rest : List ι) :
    (∀ before, before <+: i :: rest → R before) ↔
      R [] ∧ ∀ before, before <+: rest → R (i :: before) := by
  constructor
  · intro hall
    exact ⟨hall [] List.nil_prefix, fun before hpart =>
      hall (i :: before) ((List.prefix_cons_inj i).mpr hpart)⟩
  · intro hall before hpart
    rcases List.prefix_cons_iff.mp hpart with hnil | ⟨before', heq, hpart'⟩
    · rw [hnil]
      exact hall.1
    · rw [heq]
      exact hall.2 before' hpart'

/-- When a step that satisfies `P` keeps an invariant that gives `Q`, and one that does not breaks
`Q`, a run satisfies `P` throughout exactly when `Q` holds in every state that it reaches. -/
theorem everyStep_iff_of_invariant {step : σ → ι → σ} {P : σ → ι → Prop} {I Q : σ → Prop}
    (hkeeps : ∀ s i, I s → P s i → I (step s i)) (hsound : ∀ s, I s → Q s)
    (hbreaks : ∀ s i, I s → ¬P s i → ¬Q (step s i)) {s : σ} (hstart : I s) (inputs : List ι) :
    EveryStep step P s inputs ↔ ∀ before, before <+: inputs → Q (before.foldl step s) := by
  induction inputs generalizing s with
  | nil =>
    constructor
    · intro _ before hpart
      rw [List.prefix_nil.mp hpart]
      exact hsound s hstart
    · intro _
      trivial
  | cons i rest ih =>
    simp only [forall_prefix_cons, List.foldl_nil, List.foldl_cons]
    constructor
    · intro hrun
      exact ⟨hsound s hstart, (ih (hkeeps s i hstart hrun.1)).mp hrun.2⟩
    · intro hall
      have hnow : P s i := by
        by_contra hnot
        exact hbreaks s i hstart hnot (hall.2 [] List.nil_prefix)
      exact ⟨hnow, (ih (hkeeps s i hstart hnow)).mpr hall.2⟩

/-- When `P` is exactly what a step needs to keep an invariant, a run satisfies `P` throughout
exactly when the invariant holds in every state that it reaches. -/
theorem everyStep_iff_invariant {step : σ → ι → σ} {P : σ → ι → Prop} {I : σ → Prop}
    (hstep : ∀ s i, I s → (P s i ↔ I (step s i))) {s : σ} (hstart : I s) (inputs : List ι) :
    EveryStep step P s inputs ↔ ∀ before, before <+: inputs → I (before.foldl step s) :=
  everyStep_iff_of_invariant (fun s i h => (hstep s i h).mp) (fun _ h => h)
    (fun s i h => mt (hstep s i h).mpr) hstart inputs

/-- An invariant kept by every step holds at the end of every run. -/
theorem foldl_invariant {step : σ → ι → σ} {I : σ → Prop}
    (hstep : ∀ s i, I s → I (step s i)) {s : σ} (inputs : List ι) (hstart : I s) :
    I (inputs.foldl step s) :=
  (everyStep_of_forall (P := fun _ _ => True) (fun _ _ => trivial) s inputs).invariant
    (fun s i h _ => hstep s i h) hstart

/-! ## Steps that may fail -/

section Failing

variable {ε : Type*} {step : σ → ι → Except ε σ} {I : List ι → σ → Prop} {C : List ι → ι → Prop}
  {inputs : List ι} {s : σ}

/-- A run returns when both of its parts do. -/
theorem foldlM_append_eq_ok_iff (inputs more : List ι) {s s' : σ} :
    (inputs ++ more).foldlM step s = .ok s' ↔
      ∃ middle, inputs.foldlM step s = .ok middle ∧ more.foldlM step middle = .ok s' := by
  rw [List.foldlM_append]
  cases inputs.foldlM step s with
  | error fault =>
    constructor
    · intro h
      cases h
    · rintro ⟨_, h, _⟩
      cases h
  | ok middle =>
    constructor
    · intro h
      exact ⟨middle, rfl, h⟩
    · rintro ⟨_, heq, h⟩
      cases heq
      exact h

/-- A run returns when its last step does as well. -/
theorem foldlM_concat_eq_ok_iff (inputs : List ι) (i : ι) {s s' : σ} :
    (inputs ++ [i]).foldlM step s = .ok s' ↔
      ∃ middle, inputs.foldlM step s = .ok middle ∧ step middle i = .ok s' := by
  simp only [foldlM_append_eq_ok_iff, List.foldlM_cons, List.foldlM_nil, bind_pure]

/-- A run that returns has returned before and after each of its steps. -/
theorem exists_step_of_foldlM {before after : List ι} {i : ι} {s' : σ}
    (hrun : (before ++ i :: after).foldlM step s = .ok s') :
    ∃ middle next, before.foldlM step s = .ok middle ∧ step middle i = .ok next := by
  rw [List.append_cons] at hrun
  obtain ⟨next, hnext, -⟩ := (foldlM_append_eq_ok_iff (before ++ [i]) after).mp hrun
  obtain ⟨middle, hmiddle, hstep⟩ := (foldlM_concat_eq_ok_iff before i).mp hnext
  exact ⟨middle, next, hmiddle, hstep⟩

/-- What every step that returns keeps, with the inputs so far in view, holds after a run that
returns. -/
theorem foldlM_invariant (hstart : I [] s)
    (hkeeps : ∀ before i after middle next, inputs = before ++ i :: after → I before middle →
      step middle i = .ok next → I (before ++ [i]) next) {s' : σ}
    (hrun : inputs.foldlM step s = .ok s') : I inputs s' := by
  induction inputs using List.reverseRecOn generalizing s' with
  | nil =>
    cases hrun
    exact hstart
  | append_singleton inputs i ih =>
    obtain ⟨middle, hmiddle, hstep⟩ := (foldlM_concat_eq_ok_iff inputs i).mp hrun
    have hbefore : I inputs middle := by
      refine ih (fun before j after middle next heq => ?_) hmiddle
      exact hkeeps before j (after ++ [i]) middle next (by simp [heq])
    exact hkeeps inputs i [] middle s' rfl hbefore hstep

/-- When an invariant tells which inputs a step fails on, a run returns exactly when it meets none of
them. -/
theorem foldlM_returns_iff (hstart : I [] s)
    (hkeeps : ∀ before i after middle next, inputs = before ++ i :: after → I before middle →
      step middle i = .ok next → I (before ++ [i]) next)
    (hreturns : ∀ before i after middle, inputs = before ++ i :: after → I before middle →
      ((∃ next, step middle i = .ok next) ↔ C before i)) :
    (∃ s', inputs.foldlM step s = .ok s') ↔
      ∀ before i after, inputs = before ++ i :: after → C before i := by
  induction inputs using List.reverseRecOn with
  | nil =>
    refine iff_of_true ⟨s, rfl⟩ fun before i after heq => ?_
    simp at heq
  | append_singleton inputs i ih =>
    have hkeeps' : ∀ before j after middle next, inputs = before ++ j :: after → I before middle →
        step middle j = .ok next → I (before ++ [j]) next := fun before j after middle next heq =>
      hkeeps before j (after ++ [i]) middle next (by simp [heq])
    have ih' := ih hkeeps' fun before j after middle heq =>
      hreturns before j (after ++ [i]) middle (by simp [heq])
    constructor
    · rintro ⟨s', hrun⟩ before j after heq
      obtain ⟨middle, hmiddle, hstep⟩ := (foldlM_concat_eq_ok_iff inputs i).mp hrun
      rcases List.eq_nil_or_concat after with rfl | ⟨after', last, rfl⟩
      · obtain ⟨rfl, hlast⟩ := List.append_inj' heq rfl
        cases hlast
        exact (hreturns _ _ [] middle rfl (foldlM_invariant hstart hkeeps' hmiddle)).mp ⟨s', hstep⟩
      · rw [List.concat_eq_append, ← List.cons_append, ← List.append_assoc] at heq
        exact ih'.mp ⟨middle, hmiddle⟩ before j after' (List.append_inj' heq rfl).1
    · intro hall
      obtain ⟨middle, hmiddle⟩ := ih'.mpr fun before j after heq =>
        hall before j (after ++ [i]) (by simp [heq])
      obtain ⟨next, hnext⟩ := (hreturns _ _ [] middle rfl (foldlM_invariant hstart hkeeps' hmiddle)).mpr
        (hall inputs i [] rfl)
      exact ⟨next, (foldlM_concat_eq_ok_iff inputs i).mpr ⟨middle, hmiddle, hnext⟩⟩

end Failing

/-! ## What happened since -/

/-- Some input satisfies `P`, and none behind it satisfies `Q`. -/
def SinceLast (P Q : ι → Prop) (inputs : List ι) : Prop :=
  ∃ before i later, inputs = before ++ i :: later ∧ P i ∧ ∀ j ∈ later, ¬Q j

/-- Before the first input there was none. -/
theorem not_sinceLast_nil {P Q : ι → Prop} : ¬SinceLast P Q [] := by
  rintro ⟨before, i, later, heq, _⟩
  cases before <;> cases heq

/-- A further input satisfies `P` itself, or leaves what held before it as long as it does not
satisfy `Q`. -/
theorem sinceLast_concat {P Q : ι → Prop} (inputs : List ι) (i : ι) :
    SinceLast P Q (inputs ++ [i]) ↔ P i ∨ (¬Q i ∧ SinceLast P Q inputs) := by
  constructor
  · rintro ⟨before, j, later, heq, hj, hlater⟩
    rcases List.eq_nil_or_concat later with rfl | ⟨later', last, rfl⟩
    · obtain ⟨_, hlast⟩ := List.append_inj' heq rfl
      cases hlast
      exact .inl hj
    · rw [List.concat_eq_append] at heq hlater
      rw [← List.cons_append, ← List.append_assoc] at heq
      obtain ⟨hinputs, hlast⟩ := List.append_inj' heq rfl
      cases hlast
      exact .inr ⟨hlater _ (by simp), before, j, later', hinputs, hj,
        fun k hk => hlater k (List.mem_append_left _ hk)⟩
  · rintro (hi | ⟨hi, before, j, later, rfl, hj, hlater⟩)
    · exact ⟨inputs, i, [], rfl, hi, fun k hk => absurd hk List.not_mem_nil⟩
    · refine ⟨before, j, later ++ [i], by simp, hj, fun k hk => ?_⟩
      rcases List.mem_append.mp hk with hmem | hmem
      · exact hlater k hmem
      · rw [List.mem_singleton.mp hmem]
        exact hi

end MarketBlocks.Library
