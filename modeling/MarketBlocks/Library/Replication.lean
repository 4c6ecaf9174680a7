import MarketBlocks.Library.Runs
import Mathlib.Logic.Function.Basic
import Mathlib.Order.Lattice

/-!
# Replication by deltas

A source has a value for each key at each of its versions. A replica holds a version and
values, and receives deltas: a delta lists the final values of the keys that have changed
between the version of the delta before it and its own. A delta that is not newer than the
replica is dropped. The replica is consistent when its values are those of the source at
its version.

A replica that starts at a version the first delta builds on, or at a later one, is
consistent for ever. One that starts at an older version is so only if it misses nothing.
-/

namespace MarketBlocks.Library

variable {ι κ υ : Type*} [LinearOrder ι] [DecidableEq κ]

/-- The values that some keys have at a version. -/
structure Delta (ι κ υ : Type*) where
  version : ι
  changes : List (κ × υ)

namespace Delta

/-- The change has a value for the key. -/
def Lists (d : Delta ι κ υ) (key : κ) : Prop := ∃ value, (key, value) ∈ d.changes

/-- The values after the changes, made in order. -/
def apply (d : Delta ι κ υ) (values : κ → υ) : κ → υ :=
  d.changes.foldl (fun values change => Function.update values change.1 change.2) values

/-- A list of changes that agree with `final` leads to `final` at the keys it lists and leaves
the others alone. -/
theorem foldl_update {final : κ → υ} (changes : List (κ × υ))
    (hfinal : ∀ change ∈ changes, change.2 = final change.1) (values : κ → υ) (key : κ) :
    changes.foldl (fun values change => Function.update values change.1 change.2) values key =
        final key ∧ (∃ value, (key, value) ∈ changes) ∨
      changes.foldl (fun values change => Function.update values change.1 change.2) values key =
        values key ∧ ¬∃ value, (key, value) ∈ changes := by
  induction changes generalizing values with
  | nil => simp
  | cons change rest ih =>
    have hrest := ih (fun c hc => hfinal c (by simp [hc])) (Function.update values change.1 change.2)
    rw [List.foldl_cons]
    rcases hrest with ⟨hvalue, value, hmem⟩ | ⟨hvalue, hnone⟩
    · exact .inl ⟨hvalue, value, by simp [hmem]⟩
    · rw [hvalue]
      by_cases hkey : key = change.1
      · refine .inl ⟨?_, change.2, by simp [hkey]⟩
        rw [hkey, Function.update_self]
        exact hfinal change (by simp)
      · refine .inr ⟨Function.update_of_ne hkey _ _, ?_⟩
        intro hlisted
        obtain ⟨value, hmem⟩ := hlisted
        rcases List.mem_cons.mp hmem with heq | hmem
        · exact hkey (congrArg Prod.fst heq)
        · exact hnone ⟨value, hmem⟩

end Delta

/-- The delta lists the values at its version of every key that changes after `previous`. -/
structure Carries (history : ι → κ → υ) (previous : ι) (d : Delta ι κ υ) : Prop where
  later : previous < d.version
  final : ∀ change ∈ d.changes, change.2 = history d.version change.1
  complete : ∀ key, ¬d.Lists key → ∀ version, previous ≤ version → version ≤ d.version →
    history version key = history d.version key

/-- The deltas of a source after `previous`, in order and without loss. -/
def Consecutive (history : ι → κ → υ) (previous : ι) (deltas : List (Delta ι κ υ)) : Prop :=
  EveryStep (fun _ d => d.version) (Carries history) previous deltas

section

variable {history : ι → κ → υ} {previous : ι} {d : Delta ι κ υ}

/-- A key that is listed gets the value of the newer version. -/
theorem Carries.apply_of_lists (h : Carries history previous d) (values : κ → υ) {key : κ}
    (hkey : d.Lists key) : d.apply values key = history d.version key := by
  rcases Delta.foldl_update d.changes h.final values key with ⟨hvalue, -⟩ | ⟨-, hnone⟩
  · exact hvalue
  · exact absurd hkey hnone

/-- A key that is not listed keeps its value. -/
theorem Carries.apply_of_not_lists (h : Carries history previous d) (values : κ → υ) {key : κ}
    (hkey : ¬d.Lists key) : d.apply values key = values key := by
  rcases Delta.foldl_update d.changes h.final values key with ⟨-, hlisted⟩ | ⟨hvalue, -⟩
  · exact absurd hlisted hkey
  · exact hvalue

/-- A delta leads to its version exactly from the values that differ, where it lists nothing, in
nothing from the version it builds on. -/
theorem Carries.apply_eq_iff (h : Carries history previous d) (values : κ → υ) :
    d.apply values = history d.version ↔
      ∀ key, ¬d.Lists key → values key = history previous key := by
  have hprevious : ∀ key, ¬d.Lists key → history previous key = history d.version key :=
    fun key hkey => h.complete key hkey previous le_rfl h.later.le
  constructor
  · intro happly key hkey
    rw [hprevious key hkey, ← happly, h.apply_of_not_lists values hkey]
  · intro hvalues
    funext key
    by_cases hkey : d.Lists key
    · exact h.apply_of_lists values hkey
    · rw [h.apply_of_not_lists values hkey, hvalues key hkey, hprevious key hkey]

/-- A delta leads to its version from every version between the one it builds on and its own. -/
theorem Carries.apply_history (h : Carries history previous d) {version : ι}
    (hafter : previous ≤ version) (hbefore : version ≤ d.version) :
    d.apply (history version) = history d.version := by
  rw [h.apply_eq_iff]
  intro key hkey
  rw [h.complete key hkey version hafter hbefore,
    h.complete key hkey previous le_rfl h.later.le]

end

/-! ## Replicas -/

/-- A copy of the values, with the version that it has come to. -/
structure Replica (ι κ υ : Type*) where
  version : ι
  values : κ → υ

namespace Replica

/-- Apply a delta, unless the replica is as new already. -/
def receive (r : Replica ι κ υ) (d : Delta ι κ υ) : Replica ι κ υ :=
  if d.version ≤ r.version then r else ⟨d.version, d.apply r.values⟩

/-- The values are those of the source at the version of the replica. -/
def Consistent (history : ι → κ → υ) (r : Replica ι κ υ) : Prop := r.values = history r.version

variable {history : ι → κ → υ} {previous : ι}

/-- A consistent replica that is not older than what a delta builds on is consistent after the
delta, and not older than it. -/
theorem receive_consistent {r : Replica ι κ υ} {d : Delta ι κ υ} (hr : Consistent history r)
    (hd : Carries history previous d) (hprevious : previous ≤ r.version) :
    Consistent history (r.receive d) ∧ d.version ≤ (r.receive d).version := by
  unfold receive
  split
  · next hold => exact ⟨hr, hold⟩
  · next hnew =>
    refine ⟨?_, le_rfl⟩
    have hvalues : r.values = history r.version := hr
    simpa only [Consistent, hvalues] using hd.apply_history hprevious (not_le.mp hnew).le

/-- A consistent replica stays so after all the deltas that follow. -/
theorem foldl_receive_consistent {deltas : List (Delta ι κ υ)} {r : Replica ι κ υ}
    (hr : Consistent history r) (hdeltas : Consecutive history previous deltas)
    (hprevious : previous ≤ r.version) : Consistent history (deltas.foldl receive r) := by
  induction deltas generalizing previous r with
  | nil => exact hr
  | cons d rest ih =>
    obtain ⟨hnext, hversion⟩ := receive_consistent hr hdeltas.1 hprevious
    exact ih hnext hdeltas.2 hversion

omit [DecidableEq κ] in
/-- What has been delivered of consecutive deltas is consecutive. -/
theorem consecutive_initial {deltas before : List (Delta ι κ υ)}
    (hdeltas : Consecutive history previous deltas) (hpart : before <+: deltas) :
    Consecutive history previous before := by
  obtain ⟨after, heq⟩ := hpart
  rw [← heq] at hdeltas
  exact ((everyStep_append previous before after).mp hdeltas).1

/-- A replica that is loaded at `version` while the delta `first` goes by unused is consistent
after all the deltas that follow exactly when it is as new as `first`, or when the next delta
lists everything in which the two versions differ. -/
theorem loaded_consistent_iff {first : Delta ι κ υ} {rest : List (Delta ι κ υ)} (version : ι)
    (hrest : Consecutive history first.version rest) :
    (∀ before, before <+: rest →
        Consistent history (before.foldl receive ⟨version, history version⟩)) ↔
      first.version ≤ version ∨ ∀ second ∈ rest.head?, ∀ key, ¬second.Lists key →
        history version key = history first.version key := by
  by_cases hnew : first.version ≤ version
  · simp only [hnew, true_or, iff_true]
    intro before hpart
    exact foldl_receive_consistent rfl (consecutive_initial hrest hpart) hnew
  · simp only [hnew, false_or]
    have hold : version < first.version := not_le.mp hnew
    cases rest with
    | nil =>
      constructor
      · intro _ second hsecond
        cases hsecond
      · intro _ before hpart
        rw [List.prefix_nil.mp hpart]
        rfl
    | cons second rest =>
      obtain ⟨hcarries, hrest⟩ := hrest
      have hreceive : receive ⟨version, history version⟩ second =
          ⟨second.version, second.apply (history version)⟩ :=
        if_neg (not_le.mpr (hold.trans hcarries.later))
      have hiff := hcarries.apply_eq_iff (history version)
      simp only [List.head?_cons, Option.mem_some_iff, forall_eq', ← hiff]
      simp only [forall_prefix_cons, List.foldl_nil, List.foldl_cons, hreceive]
      constructor
      · intro hall
        exact hall.2 [] List.nil_prefix
      · intro happly
        refine ⟨rfl, fun before hpart => ?_⟩
        exact foldl_receive_consistent happly (consecutive_initial hrest hpart) le_rfl

end Replica

end MarketBlocks.Library
