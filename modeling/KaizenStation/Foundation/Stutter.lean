/-
KaizenStation.Foundation.Stutter — a list with elements repeated in place.

`Stutter l l'` is what at-least-once delivery makes of a list when a
duplicate directly follows its original: every element of `l` once or more,
and nothing else. Overwriting a field several times with one value is
overwriting it once (`Stutter.lastWrite`). More generally a machine for which
a repeated input repeats what it did ends in one state on both lists, and what
it puts out is repeated in place (`Stutter.run`).
-/
import KaizenStation.Foundation.LastWriter

namespace KaizenStation.Foundation

variable {α β γ : Type*}

inductive Stutter : List α → List α → Prop where
  | nil : Stutter [] []
  | cons (a : α) (n : Nat) {l l' : List α} :
      Stutter l l' → Stutter (a :: l) (List.replicate (n + 1) a ++ l')

namespace Stutter

theorem mem {l l' : List α} (h : Stutter l l') {a : α} (ha : a ∈ l') : a ∈ l := by
  induction h with
  | nil => exact ha
  | cons b n _ ih =>
    rcases List.mem_append.mp ha with ha | ha
    · rw [List.eq_of_mem_replicate ha]
      exact List.mem_cons_self
    · exact List.mem_cons_of_mem _ (ih ha)

/-- Repetitions of images are images of repetitions. -/
theorem of_map (f : α → β) {l : List α} {t : List β} (h : Stutter (l.map f) t) :
    ∃ l', Stutter l l' ∧ t = l'.map f := by
  induction l generalizing t with
  | nil =>
    cases h
    exact ⟨[], nil, rfl⟩
  | cons a l ih =>
    cases h with
    | cons _ n hl =>
      obtain ⟨l', hl', rfl⟩ := ih hl
      exact ⟨List.replicate (n + 1) a ++ l', cons a n hl', by simp⟩

theorem lastWrite {l l' : List α} (h : Stutter l l') (write? : α → Option γ) :
    lastWrite write? l' = Foundation.lastWrite write? l := by
  induction h with
  | nil => rfl
  | cons a n _ ih =>
    have hrep : ∀ n, Foundation.lastWrite write? (List.replicate (n + 1) a) = write? a := by
      intro n
      induction n with
      | zero => simp [lastWrite_cons]
      | succ n ihn =>
        rw [List.replicate_succ, lastWrite_cons, ihn]
        cases write? a <;> rfl
    rw [lastWrite_append, ih, hrep, lastWrite_cons]

theorem filter {l l' : List α} (h : Stutter l l') (keep : α → Bool) :
    Stutter (l.filter keep) (l'.filter keep) := by
  induction h with
  | nil => exact nil
  | cons a n _ ih =>
    rw [List.filter_append]
    cases hk : keep a with
    | true => simpa [hk, List.filter_replicate] using cons a n ih
    | false => simpa [hk, List.filter_replicate] using ih

/-- A fold whose step does nothing the second time. -/
theorem foldl_replicate {step : β → α → β} (hstep : ∀ s a, step (step s a) a = step s a) (s : β)
    (a : α) (n : Nat) : (List.replicate (n + 1) a).foldl step s = step s a := by
  induction n generalizing s with
  | zero => rfl
  | succ n ih => rw [List.replicate_succ, List.foldl_cons, ih, hstep]

theorem foldl {step : β → α → β} (hstep : ∀ s a, step (step s a) a = step s a) {l l' : List α}
    (h : Stutter l l') (s : β) : l'.foldl step s = l.foldl step s := by
  induction h generalizing s with
  | nil => rfl
  | cons a n _ ih => rw [List.foldl_append, foldl_replicate hstep, ih, List.foldl_cons]

end Stutter

/-! ## Machines with an output -/

section Machine

variable (step : γ → α → γ × List β)

/-- The state after a run. -/
def final (s : γ) (l : List α) : γ := l.foldl (fun s a => (step s a).1) s

/-- What a run puts out. -/
def outputs (s : γ) : List α → List β
  | [] => []
  | a :: l => (step s a).2 ++ outputs (step s a).1 l

theorem outputs_append (s : γ) (l l' : List α) :
    outputs step s (l ++ l') = outputs step s l ++ outputs step (final step s l) l' := by
  induction l generalizing s with
  | nil => rfl
  | cons a l ih => simp [outputs, final, ih]

variable {step}

/-- Where a repeated input repeats what it did, each repetition puts out the
same. -/
theorem outputs_replicate (hstep : ∀ s a, step (step s a).1 a = step s a) (s : γ) (a : α)
    (n : Nat) : outputs step s (List.replicate n a) = (List.replicate n (step s a).2).flatten := by
  induction n generalizing s with
  | zero => rfl
  | succ n ih => simp [List.replicate_succ, outputs, ih, hstep]

/-- Repeated inputs leave the state of the single ones, and repeat the
outputs in place, if a step puts out one thing at most. -/
theorem Stutter.run (hstep : ∀ s a, step (step s a).1 a = step s a)
    (hone : ∀ s a, (step s a).2.length ≤ 1) {l l' : List α} (h : Stutter l l') (s : γ) :
    final step s l' = final step s l ∧ Stutter (outputs step s l) (outputs step s l') := by
  have hstate : ∀ s a, (step (step s a).1 a).1 = (step s a).1 := by
    intro s a
    rw [hstep]
  refine ⟨h.foldl hstate s, ?_⟩
  induction h generalizing s with
  | nil => exact Stutter.nil
  | cons a n _ ih =>
    have hfinal : final step s (List.replicate (n + 1) a) = (step s a).1 :=
      Stutter.foldl_replicate hstate s a n
    have hlen := hone s a
    rw [outputs, outputs_append, outputs_replicate hstep, hfinal]
    cases hout : (step s a).2 with
    | nil => simpa using ih (step s a).1
    | cons b rest =>
      rw [hout] at hlen
      have hrest : rest = [] := by simpa using hlen
      rw [hrest]
      simpa using Stutter.cons b n (ih (step s a).1)

end Machine

end KaizenStation.Foundation
