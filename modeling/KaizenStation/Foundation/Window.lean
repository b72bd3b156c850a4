/-
KaizenStation.Foundation.Window — how long a sampled signal has kept its
value.

A signal is read again and again, at times that never go back. `since k` is
the reading at which the value of the reading `k` came up. It begins the
longest window of equal readings that ends at `k`, so the value has been held
for a time exactly if that window is as wide (`held_iff`).
-/
import Mathlib.Order.Monotone.Basic

namespace KaizenStation.Foundation

variable {α : Type*} {level : Nat → α} {time : Nat → Nat}

/-- The readings from `j` to `k` all show the value of the last one. -/
def Steady (level : Nat → α) (j k : Nat) : Prop :=
  j ≤ k ∧ ∀ i, j ≤ i → i ≤ k → level i = level k

theorem Steady.refl (k : Nat) : Steady level k k :=
  ⟨Nat.le_refl k, fun i hi hk => by rw [Nat.le_antisymm hk hi]⟩

theorem Steady.shorten {j k : Nat} (h : Steady level j (k + 1)) (hjk : j ≤ k) :
    Steady level j k ∧ level (k + 1) = level k := by
  have hk : level k = level (k + 1) := h.2 k hjk (Nat.le_succ k)
  exact ⟨⟨hjk, fun i hi hik => (h.2 i hi (Nat.le_succ_of_le hik)).trans hk.symm⟩, hk.symm⟩

theorem Steady.extend {j k : Nat} (h : Steady level j k) (hk : level (k + 1) = level k) :
    Steady level j (k + 1) := by
  refine ⟨Nat.le_succ_of_le h.1, fun i hi hik => ?_⟩
  rcases Nat.le_succ_iff.mp hik with hik | rfl
  · exact (h.2 i hi hik).trans hk.symm
  · rfl

variable [DecidableEq α]

/-- The reading at which the present value came up. -/
def since (level : Nat → α) : Nat → Nat
  | 0 => 0
  | k + 1 => if level (k + 1) = level k then since level k else k + 1

theorem since_steady (k : Nat) : Steady level (since level k) k := by
  induction k with
  | zero => exact .refl 0
  | succ k ih =>
    unfold since
    split
    · next hk => exact ih.extend hk
    · exact .refl (k + 1)

/-- No window of equal readings begins earlier. -/
theorem since_le_of_steady {j k : Nat} (h : Steady level j k) : since level k ≤ j := by
  induction k with
  | zero => exact Nat.zero_le j
  | succ k ih =>
    unfold since
    rcases Nat.le_succ_iff.mp h.1 with hjk | rfl
    · obtain ⟨hshort, hk⟩ := h.shorten hjk
      rw [if_pos hk]
      exact ih hshort
    · split
      · exact Nat.le_trans (since_steady k).1 (Nat.le_succ k)
      · exact Nat.le_refl _

/-- A window of a width ends at `k` exactly if the longest one is as wide. -/
theorem held_iff (hmono : Monotone time) (width k : Nat) :
    time (since level k) + width ≤ time k ↔
      ∃ j, Steady level j k ∧ time j + width ≤ time k := by
  constructor
  · intro h
    exact ⟨since level k, since_steady k, h⟩
  · rintro ⟨j, hsteady, hwide⟩
    have hsince := hmono (since_le_of_steady hsteady)
    omega

end KaizenStation.Foundation
