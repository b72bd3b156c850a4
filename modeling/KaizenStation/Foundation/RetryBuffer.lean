/-
KaizenStation.Foundation.RetryBuffer — items that wait in line until a
receiver accepts them.

`answers n` is the receiver's answer to attempt `n` of the whole history. A
`flush` offers the head of the line until one is refused. A new item is
submitted after a flush: it is offered if nothing is waiting, and if it was
not accepted it joins the line, unless it is volatile or the line is full.
Nothing depends on what the items are, so renaming them commutes with both
(`map_flush`, `map_submit`).
-/
import Mathlib.Algebra.Order.Ring.Int

namespace KaizenStation.Foundation

structure RetryBuffer (α : Type*) where
  pending : List α := []
  attempts : List (α × Bool) := []
  dropped : List α := []

namespace RetryBuffer

variable {α β : Type*} (answers : Nat → Bool)

/-- The line and the attempts once the waiting items were offered in turn. -/
def drain : List α → List (α × Bool) → List α × List (α × Bool)
  | [], attempts => ([], attempts)
  | x :: rest, attempts =>
    if answers attempts.length then drain rest (attempts ++ [(x, true)])
    else (x :: rest, attempts ++ [(x, false)])

def flush (b : RetryBuffer α) : RetryBuffer α :=
  { b with
    pending := (drain answers b.pending b.attempts).1
    attempts := (drain answers b.pending b.attempts).2 }

/-- The end of an item that was not accepted. -/
def keep (capacity : Nat) (isVolatile : Bool) (b : RetryBuffer α) (x : α) : RetryBuffer α :=
  if isVolatile || decide (capacity ≤ b.pending.length) then { b with dropped := b.dropped ++ [x] }
  else { b with pending := b.pending ++ [x] }

/-- Offers a new item, when nothing is waiting before it. -/
def offer (capacity : Nat) (isVolatile : Bool) (b : RetryBuffer α) (x : α) : RetryBuffer α :=
  let tried := { b with attempts := b.attempts ++ [(x, answers b.attempts.length)] }
  if answers b.attempts.length then tried else tried.keep capacity isVolatile x

/-- A new item, with the receiver within reach or not. -/
def submit (reachable : Bool) (capacity : Nat) (isVolatile : Bool) (b : RetryBuffer α) (x : α) :
    RetryBuffer α :=
  if !reachable then b.keep capacity isVolatile x
  else
    let b := b.flush answers
    if b.pending.isEmpty then b.offer answers capacity isVolatile x
    else b.keep capacity isVolatile x

/-- The accepted items, in the order of acceptance. -/
def delivered (b : RetryBuffer α) : List α := (b.attempts.filter (·.2)).map (·.1)

variable {answers}

theorem flush_nil {b : RetryBuffer α} (h : b.pending = []) : b.flush answers = b := by
  obtain ⟨pending, attempts, dropped⟩ := b
  obtain rfl : pending = [] := h
  rfl

theorem flush_accepted {b : RetryBuffer α} {x : α} {rest : List α} (h : b.pending = x :: rest)
    (ha : answers b.attempts.length = true) :
    b.flush answers =
      flush answers { b with pending := rest, attempts := b.attempts ++ [(x, true)] } := by
  simp [flush, h, drain, ha]

theorem flush_refused {b : RetryBuffer α} {x : α} {rest : List α} (h : b.pending = x :: rest)
    (ha : answers b.attempts.length = false) :
    b.flush answers = { b with attempts := b.attempts ++ [(x, false)] } := by
  simp [flush, h, drain, ha]

/-! ## Renaming the items -/

def map (f : α → β) (b : RetryBuffer α) : RetryBuffer β where
  pending := b.pending.map f
  attempts := b.attempts.map fun x => (f x.1, x.2)
  dropped := b.dropped.map f

variable (answers) in
theorem drain_map (f : α → β) (waiting : List α) (attempts : List (α × Bool)) :
    drain answers (waiting.map f) (attempts.map fun x => (f x.1, x.2)) =
      ((drain answers waiting attempts).1.map f,
        (drain answers waiting attempts).2.map fun x => (f x.1, x.2)) := by
  induction waiting generalizing attempts with
  | nil => rfl
  | cons x rest ih =>
    have hnext := ih (attempts ++ [(x, true)])
    rw [List.map_append] at hnext
    cases ha : answers attempts.length <;> simp_all [drain]

theorem map_flush (f : α → β) (b : RetryBuffer α) :
    (b.flush answers).map f = (b.map f).flush answers := by
  have h := drain_map answers f b.pending b.attempts
  simp [map, flush, h]

theorem map_keep (f : α → β) (capacity : Nat) (isVolatile : Bool) (b : RetryBuffer α) (x : α) :
    (b.keep capacity isVolatile x).map f = (b.map f).keep capacity isVolatile (f x) := by
  simp only [keep, map, List.length_map]
  split <;> simp

theorem map_offer (f : α → β) (capacity : Nat) (isVolatile : Bool) (b : RetryBuffer α) (x : α) :
    (b.offer answers capacity isVolatile x).map f =
      (b.map f).offer answers capacity isVolatile (f x) := by
  simp only [offer]
  have hlength : (b.map f).attempts.length = b.attempts.length := List.length_map _
  rw [hlength]
  cases answers b.attempts.length with
  | true => simp [map]
  | false =>
    simp only [Bool.false_eq_true, if_false, map_keep]
    simp [map]

theorem map_submit (f : α → β) (reachable : Bool) (capacity : Nat) (isVolatile : Bool)
    (b : RetryBuffer α) (x : α) :
    (b.submit answers reachable capacity isVolatile x).map f =
      (b.map f).submit answers reachable capacity isVolatile (f x) := by
  cases reachable with
  | false => exact map_keep f capacity isVolatile b x
  | true =>
    have hempty : ((b.flush answers).map f).pending.isEmpty =
        (b.flush answers).pending.isEmpty := List.isEmpty_map
    simp only [submit, Bool.not_true, Bool.false_eq_true, if_false, ← map_flush, hempty]
    cases (b.flush answers).pending.isEmpty with
    | true => exact map_offer f capacity isVolatile _ x
    | false => exact map_keep f capacity isVolatile _ x

theorem map_delivered (f : α → β) (b : RetryBuffer α) :
    (b.map f).delivered = b.delivered.map f := by
  simp [delivered, map, List.filter_map, Function.comp_def]

/-! ## Growth -/

/-- `b'` was made from `b` and these new items: what was attempted stays, and
nothing else waits or was attempted. -/
structure Grows (new : List α) (b b' : RetryBuffer α) : Prop where
  attempts : b.attempts <+: b'.attempts
  pending : ∀ y ∈ b'.pending, y ∈ b.pending ∨ y ∈ new
  attempted : ∀ y ∈ b'.attempts.map (·.1), y ∈ b.attempts.map (·.1) ∨ y ∈ b.pending ∨ y ∈ new

theorem Grows.refl (new : List α) (b : RetryBuffer α) : Grows new b b :=
  ⟨List.prefix_rfl, fun _ hy => .inl hy, fun _ hy => .inl hy⟩

theorem Grows.trans {new : List α} {b b' b'' : RetryBuffer α} (h : Grows new b b')
    (h' : Grows new b' b'') : Grows new b b'' := by
  refine ⟨h.attempts.trans h'.attempts, fun y hy => ?_, fun y hy => ?_⟩
  · rcases h'.pending y hy with hy | hy
    · exact h.pending y hy
    · exact .inr hy
  · rcases h'.attempted y hy with hy | hy | hy
    · exact h.attempted y hy
    · exact .inr (h.pending y hy)
    · exact .inr (.inr hy)

variable (answers) in
theorem drain_grows (waiting : List α) (attempts : List (α × Bool)) :
    Grows [] { pending := waiting, attempts := attempts, dropped := [] }
      { pending := (drain answers waiting attempts).1
        attempts := (drain answers waiting attempts).2
        dropped := [] } := by
  induction waiting generalizing attempts with
  | nil => exact .refl _ _
  | cons x rest ih =>
    rw [drain]
    split
    · have hrest := ih (attempts ++ [(x, true)])
      refine ⟨(List.prefix_append _ _).trans hrest.attempts, fun y hy => ?_, fun y hy => ?_⟩
      · exact (hrest.pending y hy).imp (List.mem_cons_of_mem x) id
      · have hmem := hrest.attempted y hy
        simp only [List.map_append, List.map_cons, List.map_nil, List.mem_append,
          List.mem_singleton, List.not_mem_nil, or_false] at hmem
        rcases hmem with (hy | rfl) | hy
        · exact .inl hy
        · exact .inr (.inl List.mem_cons_self)
        · exact .inr (.inl (List.mem_cons_of_mem x hy))
    · refine ⟨List.prefix_append _ _, fun _ hy => .inl hy, fun y hy => ?_⟩
      simp only [List.map_append, List.map_cons, List.map_nil, List.mem_append,
        List.mem_singleton] at hy
      rcases hy with hy | rfl
      · exact .inl hy
      · exact .inr (.inl List.mem_cons_self)

variable (answers) in
theorem flush_grows (new : List α) (b : RetryBuffer α) : Grows new b (b.flush answers) := by
  obtain ⟨hattempts, hpending, hattempted⟩ := drain_grows answers b.pending b.attempts
  refine ⟨hattempts, fun y hy => .inl ?_, fun y hy => ?_⟩
  · simpa using hpending y hy
  · have hmem := hattempted y hy
    simp only [List.not_mem_nil, or_false] at hmem
    exact hmem.imp id .inl

theorem keep_grows (capacity : Nat) (isVolatile : Bool) (b : RetryBuffer α) (x : α) :
    Grows [x] b (b.keep capacity isVolatile x) := by
  unfold keep
  split
  · exact ⟨List.prefix_rfl, fun _ hy => .inl hy, fun _ hy => .inl hy⟩
  · exact ⟨List.prefix_rfl, fun y hy => List.mem_append.mp hy, fun _ hy => .inl hy⟩

theorem offer_grows (capacity : Nat) (isVolatile : Bool) (b : RetryBuffer α) (x : α) :
    Grows [x] b (b.offer answers capacity isVolatile x) := by
  have htried : Grows [x] b
      { b with attempts := b.attempts ++ [(x, answers b.attempts.length)] } := by
    refine ⟨List.prefix_append _ _, fun _ hy => .inl hy, fun y hy => ?_⟩
    simp only [List.map_append, List.map_cons, List.map_nil, List.mem_append] at hy
    exact hy.imp id .inr
  unfold offer
  split
  · exact htried
  · exact htried.trans (keep_grows _ _ _ x)

theorem submit_grows (reachable : Bool) (capacity : Nat) (isVolatile : Bool) (b : RetryBuffer α)
    (x : α) : Grows [x] b (b.submit answers reachable capacity isVolatile x) := by
  unfold submit
  split
  · exact keep_grows _ _ _ x
  · have hflush := flush_grows answers [x] b
    simp only
    split
    · exact hflush.trans (offer_grows _ _ _ x)
    · exact hflush.trans (keep_grows _ _ _ x)

end RetryBuffer

end KaizenStation.Foundation
