import Mathlib.Data.List.Basic

/-!
# Programs that call a machine

A program makes calls, one after the other, and goes on from each reply as it likes until it ends
with a value. A machine answers a call out of its state and moves. What holds of every answer holds
of every program: an invariant of the machine is kept, and two machines that answer alike in related
states are not told apart by any program.
-/

namespace MarketBlocks.Library

/-- A program over calls `ι` with replies `ρ`. -/
inductive Interaction (ι ρ α : Type*) where
  | done (value : α)
  | call (input : ι) (next : ρ → Interaction ι ρ α)

namespace Interaction

variable {ι ρ α β σ τ : Type*}

/-- Go on from the value of a program. -/
protected def bind : Interaction ι ρ α → (α → Interaction ι ρ β) → Interaction ι ρ β
  | done value, next => next value
  | call input rest, next => call input fun reply => (rest reply).bind next

instance : Monad (Interaction ι ρ) where
  pure := done
  bind := Interaction.bind

/-- Run a program on a machine. -/
def run (answer : ι → σ → ρ × σ) : Interaction ι ρ α → σ → α × σ
  | done value, s => (value, s)
  | call input next, s => run answer (next (answer input s).1) (answer input s).2

/-- The calls that a program makes of a machine. -/
def calls (answer : ι → σ → ρ × σ) : Interaction ι ρ α → σ → List ι
  | done _, _ => []
  | call input next, s => input :: calls answer (next (answer input s).1) (answer input s).2

/-- The calls of a program with the replies that it gets. -/
def transcript (answer : ι → σ → ρ × σ) : Interaction ι ρ α → σ → List (ι × ρ)
  | done _, _ => []
  | call input next, s =>
    (input, (answer input s).1) :: transcript answer (next (answer input s).1) (answer input s).2

variable {answer : ι → σ → ρ × σ} {answer' : ι → τ → ρ × τ}

/-- What every answer keeps is kept by every program. -/
theorem run_keeps {I : σ → Prop} (hanswer : ∀ input s, I s → I (answer input s).2)
    (program : Interaction ι ρ α) {s : σ} (h : I s) : I (run answer program s).2 := by
  induction program generalizing s with
  | done value => exact h
  | call input next ih => exact ih _ (hanswer input s h)

/-- Every reply that a program gets is one of a state of the invariant. -/
theorem exists_of_mem_transcript {I : σ → Prop} (hanswer : ∀ input s, I s → I (answer input s).2)
    {program : Interaction ι ρ α} {s : σ} (h : I s) {input : ι} {reply : ρ}
    (hmem : (input, reply) ∈ transcript answer program s) :
    ∃ s', I s' ∧ reply = (answer input s').1 := by
  induction program generalizing s with
  | done value => exact absurd hmem List.not_mem_nil
  | call first next ih =>
    rcases List.mem_cons.mp hmem with heq | hlater
    · cases heq
      exact ⟨s, h, rfl⟩
    · exact ih _ (hanswer first s h) hlater

/-- What a program leaves in a collection of the machine was there before or comes from one of its
calls. -/
theorem exists_of_mem_run {γ : Type*} {I : σ → Prop} (items : σ → List γ) {Adds : ι → γ → Prop}
    (hanswer : ∀ input s, I s → I (answer input s).2 ∧
      ∀ item ∈ items (answer input s).2, item ∈ items s ∨ Adds input item)
    (program : Interaction ι ρ α) {s : σ} (h : I s) {item : γ}
    (hmem : item ∈ items (run answer program s).2) :
    item ∈ items s ∨ ∃ input ∈ calls answer program s, Adds input item := by
  induction program generalizing s with
  | done value => exact .inl hmem
  | call input next ih =>
    obtain ⟨hkept, hadds⟩ := hanswer input s h
    rcases ih _ hkept hmem with hbefore | ⟨later, hlater, hadded⟩
    · rcases hadds item hbefore with hold | hnew
      · exact .inl hold
      · exact .inr ⟨input, List.mem_cons_self, hnew⟩
    · exact .inr ⟨later, List.mem_cons_of_mem _ hlater, hadded⟩

/-- No program tells two machines apart that answer alike in related states. -/
theorem run_lockstep {S : σ → τ → Prop}
    (hanswer : ∀ input s t, S s t →
      (answer input s).1 = (answer' input t).1 ∧ S (answer input s).2 (answer' input t).2)
    (program : Interaction ι ρ α) {s : σ} {t : τ} (h : S s t) :
    (run answer program s).1 = (run answer' program t).1 ∧
      S (run answer program s).2 (run answer' program t).2 := by
  induction program generalizing s t with
  | done value => exact ⟨rfl, h⟩
  | call input next ih =>
    obtain ⟨hreply, hnext⟩ := hanswer input s t h
    rw [run, run, hreply]
    exact ih _ hnext

/-! ## Whatever the replies are -/

/-- A condition on the transcript of a program and its value, for all replies it could get. -/
def Always : (List (ι × ρ) → α → Prop) → Interaction ι ρ α → Prop
  | Q, done value => Q [] value
  | Q, call input next => ∀ reply, Always (fun entries => Q ((input, reply) :: entries)) (next reply)

variable {Q Q' : List (ι × ρ) → α → Prop} {program : Interaction ι ρ α}

/-- What follows from a postcondition always holds too. -/
theorem Always.mono (h : program.Always Q) (hQ : ∀ entries value, Q entries value → Q' entries value) :
    program.Always Q' := by
  induction program generalizing Q Q' with
  | done value => exact hQ [] value h
  | call input next ih => exact fun reply => ih reply (h reply) fun entries => hQ (_ :: entries)

/-- What always holds, holds of the run on any machine. -/
theorem Always.run (h : program.Always Q) (answer : ι → σ → ρ × σ) (s : σ) :
    Q (program.transcript answer s) (program.run answer s).1 := by
  induction program generalizing Q s with
  | done value => exact h
  | call input next ih => exact ih _ (h _) _

/-- The rule of sequences: the transcript of the first program comes before that of the second. -/
theorem Always.bind {next : α → Interaction ι ρ β} {R : List (ι × ρ) → β → Prop} (h : program.Always Q)
    (hnext : ∀ entries value, Q entries value →
      (next value).Always fun later => R (entries ++ later)) :
    (program.bind next).Always R := by
  induction program generalizing Q R with
  | done value => exact hnext [] value h
  | call input rest ih =>
    intro reply
    exact ih reply (h reply) fun entries value hentries => hnext (_ :: entries) value hentries

end Interaction

end MarketBlocks.Library
