/-
KaizenStation.Foundation.Cadence — a timer that is polled and starts again
at the moment it fires.

The timer fires at the first reading of a clock that lies `interval` or more
behind its last firing; it was set at time 0. `fired` lists the times. When a
reading is never more than `gap` after the one before, consecutive firings lie
at least `interval` and less than `interval + gap` apart. A late firing is
never made up for, so the number of firings by a reading `t` lies between
`t / (interval + gap)` and `t / interval`.
-/
import Mathlib.Data.List.Chain

namespace KaizenStation.Foundation

namespace Cadence

/-- The last firing, or the start. -/
def last (fired : List Nat) : Nat := fired.getLastD 0

def tick (interval : Nat) (fired : List Nat) (now : Nat) : List Nat :=
  if interval ≤ now - last fired then fired ++ [now] else fired

@[simp] theorem last_nil : last [] = 0 := rfl

@[simp] theorem last_append (fired : List Nat) (now : Nat) : last (fired ++ [now]) = now := by
  simp [last]

/-- How far apart two firings may lie. -/
def Apart (interval gap h h' : Nat) : Prop := h + interval ≤ h' ∧ h' < h + interval + gap

/-- What holds of the firings up to the reading `now`. -/
structure OnBeat (interval gap now : Nat) (fired : List Nat) : Prop where
  apart : (0 :: fired).IsChain (Apart interval gap)
  past : last fired ≤ now
  pending : now < last fired + interval

variable {interval gap : Nat}

theorem onBeat_nil (h : 0 < interval) : OnBeat interval gap 0 [] :=
  ⟨List.isChain_singleton 0, Nat.le_refl 0, by simpa using h⟩

theorem OnBeat.tick {now now' : Nat} {fired : List Nat} (h : OnBeat interval gap now fired)
    (hpos : 0 < interval) (hle : now ≤ now') (hgap : now' ≤ now + gap) :
    OnBeat interval gap now' (tick interval fired now') := by
  have hpast := h.past
  have hpending := h.pending
  unfold Cadence.tick
  by_cases hdue : interval ≤ now' - last fired
  · rw [if_pos hdue]
    refine ⟨?_, by simp, by simpa using hpos⟩
    rw [← List.cons_append, List.isChain_append]
    refine ⟨h.apart, List.isChain_singleton now', ?_⟩
    intro x hx y hy
    rw [List.getLast?_cons, ← List.getLastD_eq_getLast?] at hx
    obtain rfl := Option.some.inj hx
    obtain rfl := Option.some.inj hy
    show last fired + interval ≤ now' ∧ now' < last fired + interval + gap
    omega
  · rw [if_neg hdue]
    exact ⟨h.apart, by omega, by omega⟩

/-! ## Counting -/

theorem apart_last {start : Nat} {fired : List Nat}
    (h : (start :: fired).IsChain (Apart interval gap)) :
    start + interval * fired.length ≤ fired.getLastD start ∧
      fired.getLastD start ≤ start + (interval + gap) * fired.length := by
  induction fired generalizing start with
  | nil => simp
  | cons time fired ih =>
    obtain ⟨⟨hlow, hhigh⟩, hrest⟩ := List.isChain_cons_cons.mp h
    obtain ⟨hlow', hhigh'⟩ := ih hrest
    rw [List.getLastD_cons, List.length_cons, Nat.mul_succ, Nat.mul_succ]
    omega

theorem apart_nth {start : Nat} {fired : List Nat}
    (h : (start :: fired).IsChain (Apart interval gap)) (k : Nat) (hk : k < fired.length) :
    start + interval * (k + 1) ≤ fired[k] := by
  induction fired generalizing start k with
  | nil => cases hk
  | cons time fired ih =>
    obtain ⟨⟨hlow, -⟩, hrest⟩ := List.isChain_cons_cons.mp h
    cases k with
    | zero => simpa using hlow
    | succ k =>
      have hnext := ih hrest k (Nat.lt_of_succ_lt_succ hk)
      rw [List.getElem_cons_succ, Nat.mul_succ]
      omega

/-- The `k`-th firing, counted from 0, does not come before its time. -/
theorem OnBeat.nth {now : Nat} {fired : List Nat} (h : OnBeat interval gap now fired) (k : Nat)
    (hk : k < fired.length) : interval * (k + 1) ≤ fired[k] := by
  have hnth := apart_nth h.apart k hk
  omega

theorem OnBeat.count {now : Nat} {fired : List Nat} (h : OnBeat interval gap now fired)
    (hpos : 0 < interval) :
    fired.length ≤ now / interval ∧ now / (interval + gap) ≤ fired.length := by
  have hpast := h.past
  have hpending := h.pending
  obtain ⟨hlow, hhigh⟩ := apart_last h.apart
  have hlast : last fired = fired.getLastD 0 := rfl
  constructor
  · rw [Nat.le_div_iff_mul_le hpos, Nat.mul_comm]
    omega
  · rw [Nat.div_le_iff_le_mul_add_pred (Nat.lt_of_lt_of_le hpos (Nat.le_add_right _ _))]
    omega

end Cadence

end KaizenStation.Foundation
