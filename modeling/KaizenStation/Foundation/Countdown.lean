/-
KaizenStation.Foundation.Countdown — runs that get to a goal.

Some inputs, the ticks, make a rank smaller as long as the goal is not
reached. Others set it back, each by no more than a `weight`, and the rest
does not raise it. A run whose ticks make up for the rank and for what sets it
back has reached the goal at some point (`reaches`), and a goal that is never
left again holds at its end (`reached`).

An invariant can have a budget, which some of the inputs spend
(`foldl_spends`). What an input brings about wherever it comes, and no input
takes back, holds at the end of a run with such an input (`foldl_hits`).
-/
import Mathlib.Algebra.Order.Ring.Int

namespace KaizenStation.Foundation

universe u v

variable {σ : Type u} {α : Type v}

/-! ## Runs and invariants -/

section Runs

variable {step : σ → α → σ} {allowed : α → Prop}

/-- What every allowed input keeps, a run of them keeps. -/
theorem foldl_keeps {Inv : σ → Prop}
    (keep : ∀ s input, Inv s → allowed input → Inv (step s input)) {s : σ} (hs : Inv s)
    {inputs : List α} (hinputs : ∀ input ∈ inputs, allowed input) : Inv (inputs.foldl step s) := by
  induction inputs generalizing s with
  | nil => exact hs
  | cons input inputs ih =>
    exact ih (keep s input hs (hinputs input List.mem_cons_self))
      fun x hx => hinputs x (List.mem_cons_of_mem input hx)

/-- A run keeps what its inputs keep for their part of the budget. -/
theorem foldl_spends {spends : α → Bool} {Inv : Nat → σ → Prop}
    (keep : ∀ budget s input, Inv (budget + if spends input then 1 else 0) s → allowed input →
      Inv budget (step s input)) {budget : Nat} {s : σ} {inputs : List α}
    (hs : Inv (budget + inputs.countP spends) s) (hinputs : ∀ input ∈ inputs, allowed input) :
    Inv budget (inputs.foldl step s) := by
  induction inputs generalizing s with
  | nil => exact hs
  | cons input inputs ih =>
    rw [List.countP_cons, ← Nat.add_assoc] at hs
    exact ih (keep _ s input hs (hinputs input List.mem_cons_self))
      fun x hx => hinputs x (List.mem_cons_of_mem input hx)

theorem foldl_hits {spends : α → Bool} (Inv : Nat → σ → Prop) {hit : α → Prop}
    (goal : σ → Prop)
    (keep : ∀ budget s input, Inv (budget + if spends input then 1 else 0) s → allowed input →
      Inv budget (step s input))
    (hits : ∀ budget s input, Inv budget s → allowed input → hit input → goal (step s input))
    (stable : ∀ s input, goal s → allowed input → goal (step s input)) {budget : Nat} {s : σ}
    {inputs : List α} (hs : Inv (budget + inputs.countP spends) s)
    (hinputs : ∀ input ∈ inputs, allowed input) (hhit : ∃ input ∈ inputs, hit input) :
    goal (inputs.foldl step s) := by
  obtain ⟨input, hmem, hhit⟩ := hhit
  obtain ⟨before, after, rfl⟩ := List.append_of_mem hmem
  rw [List.countP_append, Nat.add_comm (before.countP spends), ← Nat.add_assoc] at hs
  have hbefore := foldl_spends keep hs fun x hx => hinputs x (List.mem_append_left _ hx)
  rw [List.foldl_append, List.foldl_cons]
  exact foldl_keeps stable (hits _ _ input hbefore (hinputs input hmem) hhit) fun x hx =>
    hinputs x (List.mem_append_right before (List.mem_cons_of_mem input hx))

end Runs

/-! ## Countdowns -/

/-- On the inputs that are allowed, `Inv` is kept and `rank` counts the ticks
down to the goal, less what sets it back. -/
structure Countdown (step : σ → α → σ) (allowed : α → Prop) (Inv goal : σ → Prop)
    (rank : σ → Nat) (tick back : α → Bool) (weight : Nat) : Prop where
  keep : ∀ s input, Inv s → allowed input → Inv (step s input)
  count : ∀ s input, Inv s → allowed input → ¬ goal s →
    goal (step s input) ∨ rank (step s input) + (if tick input then 1 else 0) ≤
      rank s + weight * (if back input then 1 else 0)
  zero : ∀ s, Inv s → rank s = 0 → goal s

namespace Countdown

variable {step : σ → α → σ} {allowed : α → Prop} {Inv goal : σ → Prop} {rank : σ → Nat}
  {tick back : α → Bool} {weight : Nat}
  (h : Countdown step allowed Inv goal rank tick back weight)
include h

theorem reaches {s : σ} (hs : Inv s) {inputs : List α} (hinputs : ∀ input ∈ inputs, allowed input)
    (hticks : rank s + weight * inputs.countP back ≤ inputs.countP tick) :
    ∃ before after, inputs = before ++ after ∧ goal (before.foldl step s) := by
  induction inputs generalizing s with
  | nil => exact ⟨[], [], rfl, h.zero s hs (Nat.le_zero.mp hticks)⟩
  | cons input inputs ih =>
    have hallowed := hinputs input List.mem_cons_self
    by_cases hgoal : goal s
    · exact ⟨[], input :: inputs, rfl, hgoal⟩
    rcases h.count s input hs hallowed hgoal with hnext | hcount
    · exact ⟨[input], inputs, rfl, hnext⟩
    · rw [List.countP_cons, List.countP_cons, Nat.mul_add] at hticks
      obtain ⟨before, after, rfl, hreached⟩ := ih (h.keep s input hs hallowed)
        (fun x hx => hinputs x (List.mem_cons_of_mem input hx)) (by omega)
      exact ⟨input :: before, after, rfl, hreached⟩

/-- A goal that is not left holds at the end of the run. -/
theorem reached (hstable : ∀ s input, Inv s → allowed input → goal s → goal (step s input))
    {s : σ} (hs : Inv s) {inputs : List α} (hinputs : ∀ input ∈ inputs, allowed input)
    (hticks : rank s + weight * inputs.countP back ≤ inputs.countP tick) :
    Inv (inputs.foldl step s) ∧ goal (inputs.foldl step s) := by
  obtain ⟨before, after, rfl, hgoal⟩ := h.reaches hs hinputs hticks
  have hbefore : Inv (before.foldl step s) :=
    foldl_keeps h.keep hs fun input hin => hinputs input (List.mem_append_left after hin)
  -- the goal is not left again
  have hkeep : ∀ s input, Inv s ∧ goal s → allowed input → Inv (step s input) ∧
      goal (step s input) :=
    fun s input hboth hallowed =>
      ⟨h.keep s input hboth.1 hallowed, hstable s input hboth.1 hallowed hboth.2⟩
  rw [List.foldl_append]
  exact foldl_keeps hkeep ⟨hbefore, hgoal⟩ fun input hin =>
    hinputs input (List.mem_append_right before hin)

end Countdown

end KaizenStation.Foundation
