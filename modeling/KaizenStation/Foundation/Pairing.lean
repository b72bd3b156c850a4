/-
KaizenStation.Foundation.Pairing — answers that do not say which request they
answer.

Requests wait in line, and whoever gets an answer takes it for that of the
oldest. `coming` is what the answers on their way are really for, in the order
in which they will come. If nothing comes twice, an empty line proves that
nothing was lost and that every pair is right (`Kept.settled`); if nothing is
lost either, the line is what is on its way (`Exact.awaiting_eq`).
-/
import Mathlib.Data.List.Basic

namespace KaizenStation.Foundation

universe u

structure Pairing (ρ : Type u) where
  asked : List ρ := []
  awaiting : List ρ := []
  coming : List ρ := []
  /-- A request and what the answer that was taken for its own was for. -/
  pairs : List (ρ × ρ) := []

namespace Pairing

variable {ρ : Type u} {p p' : Pairing ρ}

def Right (p : Pairing ρ) : Prop := ∀ pair ∈ p.pairs, pair.1 = pair.2

variable (p p') in
/-- What can happen, if nothing comes twice; only some of it loses
anything. -/
inductive Turn (loses : Prop) : Prop where
  | ask (new : List ρ) : p'.asked = p.asked ++ new → p'.awaiting = p.awaiting ++ new →
      p'.coming = p.coming ++ new → p'.pairs = p.pairs → Turn loses
  | answer (y : ρ) (later : List ρ) : p.coming = y :: later → p'.asked = p.asked →
      p'.coming = later → (∀ x rest, p.awaiting = x :: rest →
        p'.awaiting = rest ∧ p'.pairs = p.pairs ++ [(x, y)]) → Turn loses
  | pass : p'.asked = p.asked → p'.awaiting = p.awaiting → p'.pairs = p.pairs →
      p'.coming.Sublist p.coming → (¬ loses → p'.coming = p.coming) → Turn loses

/-! ## Nothing comes twice -/

structure Kept (p : Pairing ρ) : Prop where
  line : p.pairs.map Prod.fst ++ p.awaiting = p.asked
  order : (p.pairs.map Prod.snd ++ p.coming).Sublist p.asked

/-- There is a request for every answer. -/
theorem Kept.waits (h : p.Kept) {y : ρ} {later : List ρ} (hcoming : p.coming = y :: later) :
    ∃ x rest, p.awaiting = x :: rest := by
  cases hawaiting : p.awaiting with
  | cons x rest => exact ⟨x, rest, rfl⟩
  | nil =>
    have hshort := h.order.length_le
    rw [← h.line, hawaiting, hcoming] at hshort
    simp only [List.append_nil, List.length_append, List.length_map, List.length_cons] at hshort
    omega

theorem Kept.turn (h : p.Kept) {loses : Prop} (hturn : Turn p p' loses) : p'.Kept := by
  cases hturn with
  | ask new hasked hawaiting hcoming hpairs =>
    refine ⟨?_, ?_⟩
    · rw [hpairs, hawaiting, hasked, ← List.append_assoc, h.line]
    · rw [hpairs, hcoming, hasked, ← List.append_assoc]
      exact h.order.append (List.Sublist.refl new)
  | answer y later hcoming hasked hcoming' hpair =>
    obtain ⟨x, rest, hline⟩ := h.waits hcoming
    obtain ⟨hawaiting, hpairs⟩ := hpair x rest hline
    refine ⟨?_, ?_⟩
    · rw [hpairs, hawaiting, hasked, ← h.line, hline]
      simp
    · have horder := h.order
      rw [hcoming] at horder
      rw [hpairs, hcoming', hasked]
      simpa using horder
  | pass hasked hawaiting hpairs hcoming _ =>
    refine ⟨?_, ?_⟩
    · rw [hpairs, hawaiting, hasked, h.line]
    · rw [hpairs, hasked]
      exact ((List.Sublist.refl _).append hcoming).trans h.order

/-- An empty line: everything was answered, and every answer taken rightly. -/
theorem Kept.settled (h : p.Kept) (hempty : p.awaiting = []) :
    p.coming = [] ∧ p.pairs.map Prod.fst = p.asked ∧ p.Right := by
  have hline : p.pairs.map Prod.fst = p.asked := by
    have hall := h.line
    rwa [hempty, List.append_nil] at hall
  have hlength : (p.pairs.map Prod.snd).length = p.asked.length := by
    rw [← hline]
    simp
  have hnone : p.coming = [] := by
    have hshort := h.order.length_le
    rw [List.length_append, hlength] at hshort
    exact List.eq_nil_of_length_eq_zero (by omega)
  have hsame : p.pairs.map Prod.snd = p.pairs.map Prod.fst := by
    have horder := h.order
    rw [hnone, List.append_nil] at horder
    rw [hline]
    exact horder.eq_of_length hlength
  refine ⟨hnone, hline, fun pair hpair => ?_⟩
  exact (List.map_inj_left.mp hsame pair hpair).symm

/-! ## Nothing is lost -/

structure Exact (p : Pairing ρ) : Prop where
  awaiting_eq : p.awaiting = p.coming
  right : p.Right

theorem Exact.turn (h : p.Exact) {loses : Prop} (hnot : ¬ loses) (hturn : Turn p p' loses) :
    p'.Exact := by
  cases hturn with
  | ask new hasked hawaiting hcoming hpairs =>
    refine ⟨by rw [hawaiting, hcoming, h.awaiting_eq], ?_⟩
    rw [Right, hpairs]
    exact h.right
  | answer y later hcoming hasked hcoming' hpair =>
    obtain ⟨hawaiting, hpairs⟩ := hpair y later (h.awaiting_eq.trans hcoming)
    refine ⟨by rw [hawaiting, hcoming'], fun pair hmem => ?_⟩
    rw [hpairs] at hmem
    rcases List.mem_append.mp hmem with hold | hnew
    · exact h.right pair hold
    · rw [List.mem_singleton.mp hnew]
  | pass hasked hawaiting hpairs _ hcoming =>
    refine ⟨by rw [hawaiting, hcoming hnot, h.awaiting_eq], ?_⟩
    rw [Right, hpairs]
    exact h.right

end Pairing

end KaizenStation.Foundation
