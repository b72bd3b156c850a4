/-
KaizenStation.Foundation.Walk — the net number of steps of a walk.

A walk is a start and the list of the places it visits then. Some steps count
as one up, some as one down, the others as nothing. If every step changes a
position by what it counts, modulo `n`, the whole walk does (`net_modEq`).
`back` is the way back to the start.
-/
import Mathlib.Data.Int.ModEq
import Mathlib.Data.List.Induction

namespace KaizenStation.Foundation

namespace Walk

variable {α : Type*} (up down : α → α → Prop) [DecidableRel up] [DecidableRel down]

/-- The steps of a walk, each with its two ends. -/
def steps (start : α) (path : List α) : List (α × α) := (start :: path).zip path

/-- Where a walk ends. -/
def stop (start : α) (path : List α) : α := path.getLastD start

/-- How many steps of a walk are of one kind. -/
def tally (kind : α → α → Prop) [DecidableRel kind] (start : α) (path : List α) : Nat :=
  (steps start path).countP fun s => kind s.1 s.2

def net (start : α) (path : List α) : Int :=
  (tally up start path : Int) - (tally down start path : Int)

/-- What one step counts. -/
def worth (s t : α) : Int := (if up s t then 1 else 0) - (if down s t then 1 else 0)

@[simp] theorem steps_cons (start place : α) (path : List α) :
    steps start (place :: path) = (start, place) :: steps place path := rfl

@[simp] theorem stop_nil (start : α) : stop start [] = start := rfl

@[simp] theorem stop_cons (start place : α) (path : List α) :
    stop start (place :: path) = stop place path := by
  simp only [stop, List.getLastD_cons]

@[simp] theorem stop_append_singleton (start place : α) (path : List α) :
    stop start (path ++ [place]) = place := by
  simp [stop]

@[simp] theorem net_nil (start : α) : net up down start [] = 0 := by
  simp [net, tally, steps]

theorem net_cons (start place : α) (path : List α) :
    net up down start (place :: path) =
      worth up down start place + net up down place path := by
  unfold net tally worth
  rw [steps_cons, List.countP_cons, List.countP_cons]
  simp only [decide_eq_true_eq]
  split <;> split <;> push_cast <;> omega

variable {up down}

/-- A walk moves a position by what its steps count. -/
theorem net_modEq {n : Int} {position : α → Int} {start : α} {path : List α}
    (h : ∀ s ∈ steps start path, worth up down s.1 s.2 ≡ position s.2 - position s.1 [ZMOD n]) :
    net up down start path ≡ position (stop start path) - position start [ZMOD n] := by
  induction path generalizing start with
  | nil => simp
  | cons place path ih =>
    rw [steps_cons, List.forall_mem_cons] at h
    obtain ⟨hfirst, hrest⟩ := h
    have hsum := hfirst.add (ih hrest)
    rw [net_cons, stop_cons]
    have hsplit : position place - position start + (position (stop place path) - position place) =
        position (stop place path) - position start := by omega
    exact hsplit ▸ hsum

/-! ## The way back -/

/-- The places visited on the way back to the start. -/
def back (start : α) (path : List α) : List α := (start :: path).reverse.tail

@[simp] theorem back_nil (start : α) : back start [] = [] := rfl

theorem back_append_singleton (start place : α) (path : List α) :
    back start (path ++ [place]) = stop start path :: back start path := by
  have hcons : (start :: path).reverse = stop start path :: back start path := by
    induction path using List.reverseRecOn with
    | nil => rfl
    | append_singleton path last _ => simp [back]
  unfold back
  rw [← List.cons_append, List.reverse_append, hcons]
  rfl

end Walk

end KaizenStation.Foundation
