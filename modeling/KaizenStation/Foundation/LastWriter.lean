/-
KaizenStation.Foundation.LastWriter — a field that some inputs overwrite.

A state machine folds inputs into a state. `Writes get step write?` says of
one field that an input either sets it to a value of its own or leaves it;
after any run the field is then the last value written, or what it was. Two
runs whose last writers agree end with the same field, whatever happened in
between.
-/
import KaizenStation.Foundation.Coalesce

namespace KaizenStation.Foundation

universe u v w

variable {α α' : Type u} {β : Type v} {γ : Type w}

/-- Each input `a` overwrites the field `get` with `write? a` or leaves it. -/
def Writes (get : β → γ) (step : β → α → β) (write? : α → Option γ) : Prop :=
  ∀ b a, get (step b a) = (write? a).getD (get b)

/-- The last value that a run writes. -/
def lastWrite (write? : α → Option γ) (l : List α) : Option γ := (l.filterMap write?).getLast?

@[simp] theorem lastWrite_nil (write? : α → Option γ) : lastWrite write? [] = none := rfl

theorem lastWrite_append (write? : α → Option γ) (l l' : List α) :
    lastWrite write? (l ++ l') = (lastWrite write? l').or (lastWrite write? l) := by
  rw [lastWrite, List.filterMap_append, List.getLast?_append]
  rfl

theorem lastWrite_cons (write? : α → Option γ) (a : α) (l : List α) :
    lastWrite write? (a :: l) = (lastWrite write? l).or (write? a) := by
  rw [show a :: l = [a] ++ l from rfl, lastWrite_append]
  cases h : write? a <;> simp [lastWrite, h]

/-- After a run the field is the last value written, or the old one. -/
theorem Writes.foldl {get : β → γ} {step : β → α → β} {write? : α → Option γ}
    (h : Writes get step write?) (l : List α) (b : β) :
    get (l.foldl step b) = (lastWrite write? l).getD (get b) := by
  induction l generalizing b with
  | nil => rfl
  | cons a l ih =>
    rw [List.foldl_cons, ih, lastWrite_cons, h b a]
    cases lastWrite write? l <;> rfl

theorem lastWrite_eq_none {write? : α → Option γ} {l : List α} :
    lastWrite write? l = none ↔ ∀ a ∈ l, write? a = none := by
  rw [lastWrite, List.getLast?_eq_none_iff, List.filterMap_eq_nil_iff]

/-- The last writer of a list decides what it writes. -/
theorem lastWrite_filter (write? : α → Option γ) (p : α → Bool) {l : List α}
    (hp : ∀ a ∈ l, (write? a).isSome = true → p a = true) :
    lastWrite write? (l.filter p) = lastWrite write? l := by
  induction l with
  | nil => rfl
  | cons a l ih =>
    have ih := ih fun b hb => hp b (List.mem_cons_of_mem _ hb)
    cases hpa : p a with
    | true => rw [List.filter_cons_of_pos hpa, lastWrite_cons, lastWrite_cons, ih]
    | false =>
      have hnone : write? a = none := by
        cases hw : write? a with
        | none => rfl
        | some c =>
          have := hp a List.mem_cons_self (by rw [hw]; rfl)
          rw [hpa] at this
          cases this
      rw [List.filter_cons_of_neg (by simp [hpa]), lastWrite_cons, hnone, ih]
      cases lastWrite write? l <;> rfl

/-- Where every element of a list writes, the last element is the last
writer. -/
theorem lastWrite_of_forall {write? : α → Option γ} {l : List α}
    (h : ∀ a ∈ l, (write? a).isSome = true) : lastWrite write? l = l.getLast?.bind write? := by
  induction l with
  | nil => rfl
  | cons a l ih =>
    have ih := ih fun b hb => h b (List.mem_cons_of_mem _ hb)
    rw [lastWrite_cons, ih, List.getLast?_cons]
    cases hl : l.getLast? with
    | none => simp
    | some b =>
      have hb := h b (List.mem_cons_of_mem _ (List.mem_of_getLast? hl))
      cases hw : write? b with
      | none => rw [hw] at hb; cases hb
      | some c => simp [hw]

/-- With the writers marked by `p`, the last marked element is the last
writer. -/
theorem lastWrite_marked {write? : α → Option γ} (p : α → Bool) {l : List α}
    (hp : ∀ a ∈ l, (write? a).isSome = true ↔ p a = true) :
    lastWrite write? l = (l.filter p).getLast?.bind write? := by
  rw [← lastWrite_filter write? p fun a ha => (hp a ha).mp, lastWrite_of_forall]
  intro a ha
  exact (hp a (List.mem_filter.mp ha).1).mpr (List.mem_filter.mp ha).2

/-- The last write of the inputs that `f` lets through. -/
theorem lastWrite_filterMap (write? : α → Option γ) (f : α' → Option α) (l : List α') :
    lastWrite write? (l.filterMap f) = lastWrite (fun a => (f a).bind write?) l := by
  rw [lastWrite, List.filterMap_filterMap, lastWrite]

theorem lastWrite_map {δ : Type*} (write? : α → Option γ) (f : γ → δ) (l : List α) :
    lastWrite (fun a => (write? a).map f) l = (lastWrite write? l).map f := by
  rw [lastWrite, lastWrite, ← List.map_filterMap, List.getLast?_map]

/-- Where whole keys write or do not, leaving superseded items out keeps the
last write. -/
theorem Coalesced.lastWrite {κ : Type*} {key : α → Option κ} {l m : List α}
    (h : Coalesced key l m) {write? : α → Option γ}
    (hw : ∀ a ∈ l, ∀ b ∈ l, SameKey key a b → (write? a).isSome = true →
      (write? b).isSome = true) : lastWrite write? m = lastWrite write? l := by
  rw [lastWrite_marked (fun a => (write? a).isSome) fun _ _ => Iff.rfl,
    lastWrite_marked (fun a => (write? a).isSome) fun _ _ => Iff.rfl, h.getLast?_filter _ hw]

/-- A field after a run whose inputs act as the elements of another list
say. -/
theorem foldl_forall₂ {get : β → γ} {step : β → α → β} {write? : α' → Option γ}
    {R : α' → α → Prop} (h : ∀ b a a', R a' a → get (step b a) = (write? a').getD (get b))
    {l : List α'} {m : List α} (hl : List.Forall₂ R l m) (b : β) :
    get (m.foldl step b) = (lastWrite write? l).getD (get b) := by
  induction hl generalizing b with
  | nil => rfl
  | @cons a' a l m ha _ ih =>
    rw [List.foldl_cons, ih, lastWrite_cons, h b a a' ha]
    cases lastWrite write? l <;> rfl

/-! ## Inputs on their way -/

/-- The field once the inputs on their way have arrived, in their order. -/
def arriving (write? : α → Option γ) (channel : List α) (held : γ) : γ :=
  (lastWrite write? channel).getD held

theorem arriving_send (write? : α → Option γ) (channel sent : List α) (held : γ) :
    arriving write? (channel ++ sent) held =
      (lastWrite write? sent).getD (arriving write? channel held) := by
  rw [arriving, lastWrite_append]
  cases lastWrite write? sent <;> rfl

/-- The oldest input arrives. -/
theorem arriving_deliver (write? : α → Option γ) (x : α) (channel : List α) (held : γ) :
    arriving write? channel ((write? x).getD held) = arriving write? (x :: channel) held := by
  rw [arriving, arriving, lastWrite_cons]
  cases lastWrite write? channel <;> rfl

/-- It arrives and is sent again. -/
theorem arriving_again (write? : α → Option γ) (x : α) (channel : List α) (held : γ) :
    arriving write? (x :: channel) ((write? x).getD held) =
      arriving write? (x :: channel) held := by
  rw [arriving, arriving, lastWrite_cons]
  cases lastWrite write? channel with
  | none => cases write? x <;> rfl
  | some v => rfl

end KaizenStation.Foundation
