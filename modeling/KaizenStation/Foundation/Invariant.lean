/-
KaizenStation.Foundation.Invariant — properties of every state of a run.

A run folds inputs into a state. `Throughout step P s inputs` says that `P`
holds of every state the run passes through, the first and the last included.
Where an invariant survives every step but the bad ones, and every bad step
leads out of `P`, the property holds throughout exactly if no step is bad
(`throughout_iff`).
-/
import Mathlib.Algebra.Order.Ring.Int

namespace KaizenStation.Foundation

universe u v

variable {σ : Type u} {α : Type v}

def Throughout (step : σ → α → σ) (P : σ → Prop) (s : σ) (inputs : List α) : Prop :=
  ∀ before after, inputs = before ++ after → P (before.foldl step s)

/-- No input of the run is bad where it comes. -/
def NeverBad (step : σ → α → σ) (bad : σ → α → Prop) (s : σ) (inputs : List α) : Prop :=
  ∀ before input after, inputs = before ++ input :: after → ¬ bad (before.foldl step s) input

variable {step : σ → α → σ} {P : σ → Prop} {bad : σ → α → Prop}

theorem throughout_nil {s : σ} : Throughout step P s [] ↔ P s := by
  constructor
  · intro h
    exact h [] [] rfl
  · intro h before after hsplit
    obtain ⟨rfl, -⟩ := List.append_eq_nil_iff.mp hsplit.symm
    exact h

theorem throughout_cons {s : σ} {input : α} {inputs : List α} :
    Throughout step P s (input :: inputs) ↔ P s ∧ Throughout step P (step s input) inputs := by
  constructor
  · intro h
    refine ⟨h [] (input :: inputs) rfl, ?_⟩
    intro before after hsplit
    exact h (input :: before) after (by rw [hsplit]; rfl)
  · rintro ⟨hs, hrest⟩ before after hsplit
    cases before with
    | nil => exact hs
    | cons first before =>
      obtain ⟨rfl, htail⟩ := List.cons_eq_cons.mp hsplit
      exact hrest before after htail

theorem neverBad_nil {s : σ} : NeverBad step bad s [] := by
  intro before input after hsplit
  cases before <;> cases hsplit

theorem neverBad_cons {s : σ} {input : α} {inputs : List α} :
    NeverBad step bad s (input :: inputs) ↔
      ¬ bad s input ∧ NeverBad step bad (step s input) inputs := by
  constructor
  · intro h
    refine ⟨h [] input inputs rfl, ?_⟩
    intro before next after hsplit
    exact h (input :: before) next after (by rw [hsplit]; rfl)
  · rintro ⟨hs, hrest⟩ before next after hsplit
    cases before with
    | nil =>
      obtain ⟨rfl, -⟩ := List.cons_eq_cons.mp hsplit
      exact hs
    | cons first before =>
      obtain ⟨rfl, htail⟩ := List.cons_eq_cons.mp hsplit
      exact hrest before next after htail

theorem Throughout.mono {Q : σ → Prop} {s : σ} {inputs : List α}
    (h : Throughout step P s inputs) (hPQ : ∀ s, P s → Q s) : Throughout step Q s inputs :=
  fun before after hsplit => hPQ _ (h before after hsplit)

/-- What survives every step that is not bad holds throughout a run without
bad steps. -/
theorem NeverBad.throughout {Inv : σ → Prop}
    (hgood : ∀ s input, Inv s → ¬ bad s input → Inv (step s input)) {s : σ} (hs : Inv s)
    {inputs : List α} (h : NeverBad step bad s inputs) : Throughout step Inv s inputs := by
  induction inputs generalizing s with
  | nil => exact throughout_nil.mpr hs
  | cons input inputs ih =>
    obtain ⟨hb, hrest⟩ := neverBad_cons.mp h
    exact throughout_cons.mpr ⟨hs, ih (hgood s input hs hb) hrest⟩

/-- What survives every step holds throughout. -/
theorem throughout_of_step (hstep : ∀ s input, P s → P (step s input)) {s : σ} (hs : P s)
    (inputs : List α) : Throughout step P s inputs := by
  have hnever : NeverBad step (fun _ _ => False) s inputs := fun _ _ _ _ h => h
  exact hnever.throughout (fun s input h _ => hstep s input h) hs

/-- The bad steps are exactly the ways out of the property. -/
theorem throughout_iff {Inv : σ → Prop} (hP : ∀ s, Inv s → P s)
    (hgood : ∀ s input, Inv s → ¬ bad s input → Inv (step s input))
    (hbad : ∀ s input, Inv s → bad s input → ¬ P (step s input)) {s : σ} (hs : Inv s)
    (inputs : List α) : Throughout step P s inputs ↔ NeverBad step bad s inputs := by
  induction inputs generalizing s with
  | nil => exact iff_of_true (throughout_nil.mpr (hP s hs)) neverBad_nil
  | cons input inputs ih =>
    rw [throughout_cons, neverBad_cons]
    by_cases hb : bad s input
    · -- the very next state is outside
      constructor
      · rintro ⟨-, hrest⟩
        exact absurd (hrest [] inputs rfl) (hbad s input hs hb)
      · rintro ⟨hnot, -⟩
        exact absurd hb hnot
    · have hnext := ih (hgood s input hs hb)
      constructor
      · rintro ⟨-, hrest⟩
        exact ⟨hb, hnext.mp hrest⟩
      · rintro ⟨-, hrest⟩
        exact ⟨hP s hs, hnext.mpr hrest⟩

end KaizenStation.Foundation
