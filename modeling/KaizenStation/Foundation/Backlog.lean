/-
KaizenStation.Foundation.Backlog — a bounded queue that refuses nothing.

A queue of some capacity takes what arrives while it has room; a service takes
one item away if there is one. Services of an empty queue are lost, so it is
not enough to compare totals. A queue that starts empty refuses nothing
exactly if in no part of its trace more arrive than are served and the queue
can hold (`refusals_empty_iff`).
-/
import Mathlib.Algebra.Order.Ring.Int

namespace KaizenStation.Foundation

/-- What happens to a queue. -/
inductive Traffic where
  | arrive
  | serve
  | idle
  deriving DecidableEq

namespace Traffic

def arrivals (trace : List Traffic) : Nat := trace.count .arrive

def services (trace : List Traffic) : Nat := trace.count .serve

/-- The arrivals that find the queue full, from `n` items in it. -/
def refusals (capacity : Nat) : Nat → List Traffic → Nat
  | _, [] => 0
  | n, .arrive :: trace =>
    if n < capacity then refusals capacity (n + 1) trace else refusals capacity n trace + 1
  | n, .serve :: trace => refusals capacity (n - 1) trace
  | n, .idle :: trace => refusals capacity n trace

@[simp] theorem arrivals_nil : arrivals [] = 0 := rfl
@[simp] theorem services_nil : services [] = 0 := rfl
@[simp] theorem arrivals_arrive (trace : List Traffic) :
    arrivals (.arrive :: trace) = arrivals trace + 1 := by simp [arrivals]
@[simp] theorem services_arrive (trace : List Traffic) :
    services (.arrive :: trace) = services trace := by simp [services]
@[simp] theorem arrivals_serve (trace : List Traffic) :
    arrivals (.serve :: trace) = arrivals trace := by simp [arrivals]
@[simp] theorem services_serve (trace : List Traffic) :
    services (.serve :: trace) = services trace + 1 := by simp [services]
@[simp] theorem arrivals_idle (trace : List Traffic) :
    arrivals (.idle :: trace) = arrivals trace := by simp [arrivals]
@[simp] theorem services_idle (trace : List Traffic) :
    services (.idle :: trace) = services trace := by simp [services]

/-- The queue can hold what arrives in every prefix on top of what it has, and
what arrives in every part. -/
def Fits (capacity n : Nat) (trace : List Traffic) : Prop :=
  (∀ part, part <+: trace → n + arrivals part ≤ services part + capacity) ∧
    ∀ part, part <:+: trace → arrivals part ≤ services part + capacity

variable {capacity n : Nat} {trace : List Traffic}

theorem fits_nil (h : n ≤ capacity) : Fits capacity n [] := by
  refine ⟨fun part hpart => ?_, fun part hpart => ?_⟩
  · obtain rfl := List.prefix_nil.mp hpart
    simpa using h
  · obtain rfl := List.infix_nil.mp hpart
    simp

/-- What can be said of the parts of a longer trace. -/
theorem fits_cons {x : Traffic} (h : n ≤ capacity) :
    Fits capacity n (x :: trace) ↔
      (∀ part, part <+: trace → n + arrivals (x :: part) ≤ services (x :: part) + capacity) ∧
      (∀ part, part <+: trace → arrivals (x :: part) ≤ services (x :: part) + capacity) ∧
      ∀ part, part <:+: trace → arrivals part ≤ services part + capacity := by
  constructor
  · rintro ⟨hfront, hpart⟩
    refine ⟨fun part hp => hfront _ ?_, fun part hp => hpart _ ?_, fun part hp => hpart _ ?_⟩
    · exact List.prefix_cons_inj x |>.mpr hp
    · exact (List.prefix_cons_inj x |>.mpr hp).isInfix
    · exact List.infix_cons hp
  · rintro ⟨hfront, hfirst, hpart⟩
    refine ⟨fun part hp => ?_, fun part hp => ?_⟩
    · rcases List.prefix_cons_iff.mp hp with rfl | ⟨rest, rfl, hrest⟩
      · simpa using h
      · exact hfront rest hrest
    · rcases List.infix_cons_iff.mp hp with hp | hp
      · rcases List.prefix_cons_iff.mp hp with rfl | ⟨rest, rfl, hrest⟩
        · simp
        · exact hfirst rest hrest
      · exact hpart part hp

theorem refusals_eq_zero_iff (h : n ≤ capacity) :
    refusals capacity n trace = 0 ↔ Fits capacity n trace := by
  induction trace generalizing n with
  | nil => exact iff_of_true rfl (fits_nil h)
  | cons x trace ih =>
    rw [fits_cons h]
    cases x with
    | arrive =>
      by_cases hroom : n < capacity
      · rw [refusals, if_pos hroom, ih (Nat.succ_le_of_lt hroom)]
        simp only [arrivals_arrive, services_arrive]
        constructor
        · rintro ⟨hfront, hpart⟩
          refine ⟨fun part hp => ?_, fun part hp => ?_, hpart⟩ <;> have := hfront part hp <;> omega
        · rintro ⟨hfront, -, hpart⟩
          refine ⟨fun part hp => ?_, hpart⟩
          have := hfront part hp
          omega
      · -- the arrival itself is one too many
        rw [refusals, if_neg hroom]
        refine iff_of_false (Nat.succ_ne_zero _) fun hfits => ?_
        have hone := hfits.1 [] List.nil_prefix
        simp only [arrivals_arrive, services_arrive, arrivals_nil, services_nil] at hone
        omega
    | serve =>
      rw [refusals, ih (Nat.le_trans (Nat.sub_le n 1) h)]
      simp only [arrivals_serve, services_serve]
      constructor
      · rintro ⟨hfront, hpart⟩
        refine ⟨fun part hp => ?_, fun part hp => ?_, hpart⟩ <;> have := hfront part hp <;> omega
      · rintro ⟨hfront, -, hpart⟩
        refine ⟨fun part hp => ?_, hpart⟩
        -- of an empty queue nothing is served
        have h₁ := hfront part hp
        have h₂ := hpart part hp.isInfix
        omega
    | idle =>
      rw [refusals, ih h]
      simp only [arrivals_idle, services_idle]
      constructor
      · rintro ⟨hfront, hpart⟩
        exact ⟨hfront, fun part hp => hpart part hp.isInfix, hpart⟩
      · rintro ⟨hfront, -, hpart⟩
        exact ⟨hfront, hpart⟩

theorem refusals_empty_iff : refusals capacity 0 trace = 0 ↔
    ∀ part, part <:+: trace → arrivals part ≤ services part + capacity := by
  rw [refusals_eq_zero_iff (Nat.zero_le capacity)]
  constructor
  · exact fun h => h.2
  · intro h
    refine ⟨fun part hp => ?_, h⟩
    rw [Nat.zero_add]
    exact h part hp.isInfix

end Traffic

end KaizenStation.Foundation
