/-
KaizenStation.Foundation.Keyed — machines that keep one entry for each key.

An input names at most one key, and what it makes of the entry of that key
depends on that entry alone; every other entry it leaves as it is. A run then
leaves in an entry what the inputs of its key make of it, in their order
(`Keyed.foldl`), and two machines that treat entries alike end with the same
entries, however they differ otherwise (`Keyed.foldl_eq`).
-/
import Mathlib.Algebra.Order.Ring.Int

namespace KaizenStation.Foundation

universe u v w x

variable {σ : Type u} {σ' : Type u} {α : Type v} {κ : Type w} {ε : Type x} [DecidableEq κ]

structure Keyed (get : σ → κ → ε) (step : σ → α → σ) (key : α → Option κ)
    (act : ε → α → ε) : Prop where
  own : ∀ s input k, key input = some k → get (step s input) k = act (get s k) input
  other : ∀ s input k, key input ≠ some k → get (step s input) k = get s k

namespace Keyed

variable {get : σ → κ → ε} {step : σ → α → σ} {key : α → Option κ} {act : ε → α → ε}
variable {get' : σ' → κ → ε} {step' : σ' → α → σ'}

/-- The entry of a key is the work of the inputs of that key. -/
theorem foldl (h : Keyed get step key act) (s : σ) (inputs : List α) (k : κ) :
    get (inputs.foldl step s) k =
      (inputs.filter fun input => key input = some k).foldl act (get s k) := by
  induction inputs generalizing s with
  | nil => rfl
  | cons input inputs ih =>
    rw [List.foldl_cons, ih]
    by_cases hk : key input = some k
    · simp [hk, h.own s input k hk]
    · simp [hk, h.other s input k hk]

/-- A key that no input names keeps its entry. -/
theorem foldl_unnamed (h : Keyed get step key act) (s : σ) {inputs : List α} {k : κ}
    (hk : ∀ input ∈ inputs, key input ≠ some k) : get (inputs.foldl step s) k = get s k := by
  have hnone : (inputs.filter fun input => key input = some k) = [] := by
    simpa [List.filter_eq_nil_iff] using hk
  rw [h.foldl, hnone, List.foldl_nil]

/-- One machine run on everything, another on the inputs of one key: the two
agree on the entry of that key. -/
theorem foldl_eq (h : Keyed get step key act) (h' : Keyed get' step' key act) {s : σ} {s' : σ'}
    {k : κ} (hs : get s k = get' s' k) (inputs : List α) :
    get (inputs.foldl step s) k =
      get' ((inputs.filter fun input => key input = some k).foldl step' s') k := by
  rw [h.foldl, h'.foldl, List.filter_filter, hs]
  simp

end Keyed

end KaizenStation.Foundation
