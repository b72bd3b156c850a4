/-
KaizenStation.Foundation.Relay — a value copied through a queue.

One side owns a value and puts every new one into a queue; the other side
takes values out and keeps the last. Messages may be repeated in place. The
newest message on its way, or the copy when there is none, is always the
owner's value (`Step.agrees`). A machine whose steps a relay can answer, each
with one step or none, inherits that for all its runs (`agrees_throughout`).
Once messages have been lost, the next value that is written makes up for it
(`agrees_iff_written`).
-/
import KaizenStation.Foundation.Invariant

namespace KaizenStation.Foundation

universe u v w

structure Relay (β : Type u) where
  source : β
  pending : List β
  copy : β

namespace Relay

variable {β : Type u}

/-- The newest message, or the copy. -/
def newest (r : Relay β) : β := r.pending.getLast?.getD r.copy

def Agrees (r : Relay β) : Prop := r.newest = r.source

inductive Step : Relay β → Relay β → Prop where
  | write (r : Relay β) (v : β) : Step r { r with source := v, pending := r.pending ++ [v] }
  | again (r : Relay β) (before after : List β) (v : β) :
      r.pending = before ++ v :: after → Step r { r with pending := before ++ v :: v :: after }
  | take (r : Relay β) (v : β) (rest : List β) :
      r.pending = v :: rest → Step r { r with pending := rest, copy := v }

theorem Step.agrees {r r' : Relay β} (h : Step r r') (hr : r.Agrees) : r'.Agrees := by
  cases h with
  | write v => simp [Agrees, newest]
  | again before after v hp =>
    rw [Agrees, newest, hp] at hr
    rw [Agrees, newest, ← hr]
    cases after <;> simp
  | take v rest hp =>
    rw [Agrees, newest, hp] at hr
    rw [Agrees, newest, ← hr]
    simp [List.getLast?_cons]

variable {σ : Type v} {α : Type w} {step : σ → α → σ} {bad : σ → α → Prop} {Inv : σ → Prop}

/-- The runs of a machine that a relay simulates, while no step is bad. -/
theorem agrees_throughout {relay : σ → Relay β}
    (hinv : ∀ s input, Inv s → ¬ bad s input → Inv (step s input))
    (hsim : ∀ s input, Inv s → ¬ bad s input →
      Relation.ReflGen Step (relay s) (relay (step s input)))
    {s : σ} (hs : Inv s) (hagree : (relay s).Agrees) {inputs : List α}
    (h : NeverBad step bad s inputs) : Throughout step (fun s => (relay s).Agrees) s inputs := by
  have hgood : ∀ s input, (Inv s ∧ (relay s).Agrees) → ¬ bad s input →
      Inv (step s input) ∧ (relay (step s input)).Agrees := by
    rintro s input ⟨hs, hagree⟩ hb
    refine ⟨hinv s input hs hb, ?_⟩
    rcases (Relation.reflGen_iff _ _ _).mp (hsim s input hs hb) with heq | hstep
    · rw [heq]
      exact hagree
    · exact hstep.agrees hagree
  exact (h.throughout hgood ⟨hs, hagree⟩).mono fun _ h => h.2

/-! ## Relays that were disturbed -/

/-- Neither the newest message nor the owner's value changes. -/
structure Carries (r r' : Relay β) : Prop where
  newest : r'.newest = r.newest
  source : r'.source = r.source

theorem Carries.refl (r : Relay β) : Carries r r := ⟨rfl, rfl⟩

theorem Carries.agrees_iff {r r' : Relay β} (h : Carries r r') : r'.Agrees ↔ r.Agrees := by
  rw [Agrees, h.newest, h.source, Agrees]

/-- A message that is taken is the copy from then on. -/
theorem carries_take (source : β) (v : β) (rest : List β) (copy : β) :
    Carries ⟨source, v :: rest, copy⟩ ⟨source, rest, v⟩ := by
  refine ⟨?_, rfl⟩
  simp [newest, List.getLast?_cons]

theorem carries_again (source : β) (before after : List β) (v copy : β) :
    Carries ⟨source, before ++ v :: after, copy⟩ ⟨source, before ++ v :: v :: after, copy⟩ := by
  refine ⟨?_, rfl⟩
  cases after <;> simp [newest]

/-- A value that is written is the newest message, whatever was on its way. -/
theorem agrees_write (v : β) (pending : List β) (copy : β) :
    Agrees ⟨v, pending ++ [v], copy⟩ := by
  simp [Agrees, newest]

/-- A machine that carries what is on its way, except where it writes: after a
run the two sides agree exactly if they did before or something was
written. -/
theorem agrees_iff_written {relay : σ → Relay β} {writes : σ → α → Prop}
    (hinv : ∀ s input, Inv s → ¬ bad s input → Inv (step s input))
    (hcarries : ∀ s input, Inv s → ¬ bad s input → ¬ writes s input →
      Carries (relay s) (relay (step s input)))
    (hwrites : ∀ s input, Inv s → ¬ bad s input → writes s input →
      (relay (step s input)).Agrees)
    {s : σ} (hs : Inv s) {inputs : List α} (h : NeverBad step bad s inputs) :
    (relay (inputs.foldl step s)).Agrees ↔
      (relay s).Agrees ∨ ¬ NeverBad step writes s inputs := by
  induction inputs generalizing s with
  | nil => simp [neverBad_nil]
  | cons input inputs ih =>
    obtain ⟨hb, hrest⟩ := neverBad_cons.mp h
    have hnext := ih (hinv s input hs hb) hrest
    rw [List.foldl_cons, hnext, neverBad_cons]
    by_cases hw : writes s input
    · have hagrees := hwrites s input hs hb hw
      simp [hagrees, hw]
    · have hcarry := hcarries s input hs hb hw
      simp [hcarry.agrees_iff, hw]

end Relay

end KaizenStation.Foundation
