/-
KaizenStation.Foundation.Coalesce — coalescing of keyed items.

An item may carry a key. Of two items with one key the later supersedes the
earlier; an item without a key is never superseded. Two readings of "what is
left of a sequence" are developed here:

* `Coalesced key l m` — `m` is `l` with some superseded items left out. It
  keeps the order (`Coalesced.sublist`) and, for any property that items of
  one key share, the last item with it (`Coalesced.getLast?_filter`). That
  last fact is why a coalesced sequence of absolute values means the same.
* `History` — every item ever accepted, with the positions already taken
  out. `History.held` is the exact remainder: neither taken nor superseded.
  It fixes positions rather than values, so equal items stay apart.
-/
import Mathlib.Data.List.Basic
import Mathlib.Data.List.Nodup
import Mathlib.Data.List.Pairwise
import Mathlib.Data.List.Range

namespace KaizenStation.Foundation

variable {α κ : Type*} (key : α → Option κ)

/-- Two items carry one key. An item without a key shares it with nothing,
itself included. -/
def SameKey (a b : α) : Prop := key a ≠ none ∧ key a = key b

instance [DecidableEq κ] (a b : α) : Decidable (SameKey key a b) :=
  inferInstanceAs (Decidable (key a ≠ none ∧ key a = key b))

variable {key} in
theorem SameKey.symm {a b : α} (h : SameKey key a b) : SameKey key b a :=
  ⟨h.2 ▸ h.1, h.2.symm⟩

variable {key} in
theorem SameKey.trans {a b c : α} (h : SameKey key a b) (h' : SameKey key b c) :
    SameKey key a c :=
  ⟨h.1, h.2.trans h'.2⟩

variable {key} in
/-- In a sequence with unique keys, an item that `x` supersedes is the only
one. -/
theorem not_sameKey_of_head {x a : α} {l : List α} (h : ∀ b ∈ l, ¬ SameKey key a b)
    (hax : SameKey key a x) : ∀ b ∈ l, ¬ SameKey key b x :=
  fun b hb hbx => h b hb (hax.trans hbx.symm)

/-- What the arrival of `x` leaves of a sequence: everything it does not
supersede. -/
def cleared [DecidableEq κ] (x : α) (l : List α) : List α :=
  l.filter (fun a => ¬ SameKey key a x)

/-- No two items of the sequence carry one key. -/
def KeysUnique (l : List α) : Prop := l.Pairwise (fun a b => ¬ SameKey key a b)

section Cleared

variable {key} [DecidableEq κ]

theorem cleared_sublist (x : α) (l : List α) : (cleared key x l).Sublist l :=
  List.filter_sublist

theorem mem_cleared {x a : α} {l : List α} :
    a ∈ cleared key x l ↔ a ∈ l ∧ ¬ SameKey key a x := by
  simp [cleared]

theorem cleared_eq_self {x : α} {l : List α} (h : ∀ a ∈ l, ¬ SameKey key a x) :
    cleared key x l = l := by
  rw [cleared, List.filter_eq_self]
  exact fun a ha => decide_eq_true (h a ha)

theorem KeysUnique.cleared_append {l : List α} (h : KeysUnique key l) (x : α) :
    KeysUnique key (cleared key x l ++ [x]) := by
  refine List.pairwise_append.mpr ⟨h.sublist (cleared_sublist x l), by simp, ?_⟩
  intro a ha b hb
  rw [List.mem_singleton] at hb
  subst hb
  exact (mem_cleared.mp ha).2

/-- With unique keys, erasing the first match is clearing. -/
theorem eraseP_eq_cleared {l : List α} (h : KeysUnique key l) (x : α) :
    l.eraseP (fun a => SameKey key a x) = cleared key x l := by
  induction l with
  | nil => rfl
  | cons a l ih =>
    obtain ⟨hal, hl⟩ := List.pairwise_cons.mp h
    by_cases hax : SameKey key a x
    · have hcons : cleared key x (a :: l) = cleared key x l := by simp [cleared, hax]
      rw [hcons, cleared_eq_self (not_sameKey_of_head hal hax)]
      simp [hax]
    · simpa [cleared, hax] using ih hl

/-- With unique keys, what `x` supersedes is the first match or nothing. -/
theorem filter_sameKey_eq_find? {l : List α} (h : KeysUnique key l) (x : α) :
    l.filter (fun a => SameKey key a x) = (l.find? (fun a => SameKey key a x)).toList := by
  induction l with
  | nil => rfl
  | cons a l ih =>
    obtain ⟨hal, hl⟩ := List.pairwise_cons.mp h
    by_cases hax : SameKey key a x
    · have hrest : l.filter (fun b => SameKey key b x) = [] :=
        List.filter_eq_nil_iff.mpr fun b hb => by
          simpa using not_sameKey_of_head hal hax b hb
      simp [hax, hrest]
    · simpa [hax] using ih hl

end Cleared

/-! ## Leaving superseded items out -/

/-- `Coalesced key l m`: `m` is `l` without some of the items that a later
item of `l` supersedes. -/
inductive Coalesced : List α → List α → Prop where
  | nil : Coalesced [] []
  | keep (a : α) {l m : List α} : Coalesced l m → Coalesced (a :: l) (a :: m)
  | drop {a b : α} {l m : List α} :
      b ∈ l → SameKey key a b → Coalesced l m → Coalesced (a :: l) m

namespace Coalesced

variable {key}

theorem sublist {l m : List α} (h : Coalesced key l m) : m.Sublist l := by
  induction h with
  | nil => exact List.Sublist.slnil
  | keep a _ ih => exact ih.cons_cons a
  | drop _ _ _ ih => exact ih.cons _

/-- One arrival: everything the new item supersedes may go from any tail of
what is left, and the item itself goes to the back. -/
theorem push [DecidableEq κ] {l m : List α} (h : Coalesced key l m) (x : α) :
    ∀ p e : List α, m = p ++ e → Coalesced key (l ++ [x]) (p ++ (cleared key x e ++ [x])) := by
  induction h with
  | nil =>
    intro p e hm
    obtain ⟨rfl, rfl⟩ := List.append_eq_nil_iff.mp hm.symm
    exact keep x nil
  | @keep a l m _ ih =>
    intro p e hm
    cases p with
    | cons q p =>
      obtain ⟨rfl, rfl⟩ := List.cons_eq_cons.mp hm
      exact keep a (ih p e rfl)
    | nil =>
      -- the head belongs to the part that is cleared
      rw [List.nil_append] at hm
      subst hm
      by_cases hax : SameKey key a x
      · have : cleared key x (a :: m) = cleared key x m := by simp [cleared, hax]
        rw [this]
        exact drop (by simp) hax (ih [] m rfl)
      · have : cleared key x (a :: m) = a :: cleared key x m := by simp [cleared, hax]
        rw [this]
        exact keep a (ih [] m rfl)
  | drop hb hab _ ih =>
    intro p e hm
    exact drop (List.mem_append_left _ hb) hab (ih p e hm)

/-- For a property shared by all items of one key, the last item with it
survives coalescing. -/
theorem getLast?_filter {l m : List α} (h : Coalesced key l m) (p : α → Bool)
    (hp : ∀ a ∈ l, ∀ b ∈ l, SameKey key a b → p a = true → p b = true) :
    (m.filter p).getLast? = (l.filter p).getLast? := by
  induction h with
  | nil => rfl
  | @keep a l m _ ih =>
    have ih := ih fun b hb c hc => hp b (List.mem_cons_of_mem _ hb) c (List.mem_cons_of_mem _ hc)
    by_cases hpa : p a = true
    · simp only [List.filter_cons_of_pos hpa, List.getLast?_cons, ih]
    · simp only [List.filter_cons_of_neg hpa, ih]
  | @drop a b l m hb hab _ ih =>
    have ih := ih fun b hb c hc => hp b (List.mem_cons_of_mem _ hb) c (List.mem_cons_of_mem _ hc)
    by_cases hpa : p a = true
    · -- the superseding item has the property too, so it is not the last
      have hpb := hp a (by simp) b (List.mem_cons_of_mem _ hb) hab hpa
      have hmem : b ∈ l.filter p := List.mem_filter.mpr ⟨hb, hpb⟩
      obtain ⟨z, hz⟩ : ∃ z, (l.filter p).getLast? = some z := by
        cases hl : (l.filter p).getLast? with
        | none => rw [List.getLast?_eq_none_iff.mp hl] at hmem; cases hmem
        | some z => exact ⟨z, rfl⟩
      rw [List.filter_cons_of_pos hpa, List.getLast?_cons, ih, hz]
      rfl
    · rw [List.filter_cons_of_neg hpa, ih]

/-- Items without a key all survive, in their order. -/
theorem filter_eq {l m : List α} (h : Coalesced key l m) (p : α → Bool)
    (hp : ∀ a ∈ l, p a = true → key a = none) : m.filter p = l.filter p := by
  induction h with
  | nil => rfl
  | keep a _ ih =>
    have ih := ih fun b hb => hp b (List.mem_cons_of_mem _ hb)
    simp only [List.filter_cons, ih]
  | @drop a b l m _ hab _ ih =>
    have ih := ih fun b hb => hp b (List.mem_cons_of_mem _ hb)
    have hpa : ¬ p a = true := fun hpa => hab.1 (hp a (by simp) hpa)
    rw [List.filter_cons_of_neg hpa, ih]

end Coalesced

/-! ## The exact remainder of a history -/

/-- Position `i` of the accepted items is superseded: a later one carries
its key. -/
def supersededAt [DecidableEq κ] (accepted : List α) (i : Nat) : Bool :=
  match accepted[i]? with
  | some a => (accepted.drop (i + 1)).any (fun b => SameKey key a b)
  | none => false

/-- Everything accepted, in order, and the positions taken out since. -/
structure History (α : Type*) where
  accepted : List α := []
  taken : List Nat := []

namespace History

variable [DecidableEq κ]

/-- The positions neither taken nor superseded. -/
def live (h : History α) : List Nat :=
  (List.range h.accepted.length).filter
    (fun i => decide (i ∉ h.taken) && !supersededAt key h.accepted i)

/-- What a history holds: its live items, in the order of acceptance. -/
def held (h : History α) : List α := (h.live key).filterMap (h.accepted[·]?)

def push (h : History α) (x : α) : History α := { h with accepted := h.accepted ++ [x] }

/-- Take the oldest live position. -/
def pop (h : History α) : History α :=
  match h.live key with
  | [] => h
  | i :: _ => { h with taken := h.taken ++ [i] }

/-- Positions are taken in order, and what is live is newer than all of
them. -/
structure Ordered (h : History α) : Prop where
  increasing : h.taken.Pairwise (· < ·)
  inRange : ∀ t ∈ h.taken, t < h.accepted.length
  beforeLive : ∀ t ∈ h.taken, ∀ i ∈ h.live key, t < i

variable {key}

theorem mem_live {h : History α} {i : Nat} :
    i ∈ h.live key ↔
      i < h.accepted.length ∧ i ∉ h.taken ∧ supersededAt key h.accepted i = false := by
  simp [live]

theorem live_lt {h : History α} {i : Nat} (hi : i ∈ h.live key) : i < h.accepted.length :=
  (mem_live.mp hi).1

theorem live_increasing (h : History α) : (h.live key).Pairwise (· < ·) :=
  List.pairwise_lt_range.sublist List.filter_sublist

theorem ordered_empty : Ordered key ({} : History α) :=
  ⟨List.Pairwise.nil, by simp, by simp⟩

/-- An arrival adds a possible successor to every older position. -/
theorem supersededAt_push {accepted : List α} {x : α} {i : Nat} {a : α}
    (ha : accepted[i]? = some a) :
    supersededAt key (accepted ++ [x]) i =
      (supersededAt key accepted i || decide (SameKey key a x)) := by
  have hi : i < accepted.length := (List.getElem?_eq_some_iff.mp ha).1
  have ha' : (accepted ++ [x])[i]? = some a := by rw [List.getElem?_append_left hi, ha]
  have hd : (accepted ++ [x]).drop (i + 1) = accepted.drop (i + 1) ++ [x] :=
    List.drop_append_of_le_length hi
  simp [supersededAt, ha, ha', hd]

theorem supersededAt_last (accepted : List α) (x : α) :
    supersededAt key (accepted ++ [x]) accepted.length = false := by
  simp [supersededAt]

/-- The live positions after an arrival: the ones it does not supersede,
and its own. -/
theorem live_push {h : History α} (ho : Ordered key h) (x : α) :
    (h.push x).live key =
      (h.live key).filter
        (fun i => (h.accepted[i]?.all fun a => ¬ SameKey key a x)) ++ [h.accepted.length] := by
  have hnew : h.accepted.length ∉ h.taken := fun hm => absurd (ho.inRange _ hm) (by omega)
  have hlen : (h.push x).accepted.length = h.accepted.length + 1 := by simp [push]
  rw [live, hlen, List.range_succ, List.filter_append, live, List.filter_filter]
  congr 1
  · refine List.filter_congr fun i hi => ?_
    have hlt : i < h.accepted.length := List.mem_range.mp hi
    have ha : h.accepted[i]? = some h.accepted[i] := List.getElem?_eq_getElem hlt
    simp only [push, supersededAt_push ha, ha, Option.all_some]
    by_cases ht : i ∈ h.taken <;>
      cases supersededAt key h.accepted i <;> simp [ht]
  · simp [push, hnew, supersededAt_last]

/-- Reading positions commutes with dropping the positions of superseded
items. -/
theorem filterMap_filter_get (acc : List α) (p : α → Bool) (is : List Nat) :
    (is.filter (fun i => (acc[i]?.all p))).filterMap (acc[·]?) =
      (is.filterMap (acc[·]?)).filter p := by
  induction is with
  | nil => rfl
  | cons i is ih =>
    cases ha : acc[i]? with
    | none => simp [ha, ih]
    | some a =>
      by_cases hp : p a = true
      · simp [ha, hp, ih]
      · simp [ha, hp, ih]

theorem held_push {h : History α} (ho : Ordered key h) (x : α) :
    (h.push x).held key = cleared key x (h.held key) ++ [x] := by
  have hread : ∀ i ∈ h.live key, (h.accepted ++ [x])[i]? = h.accepted[i]? :=
    fun i hi => List.getElem?_append_left (live_lt hi)
  rw [held, live_push ho x, List.filterMap_append]
  congr 1
  · rw [cleared, held, ← filterMap_filter_get]
    refine List.filterMap_congr fun i hi => ?_
    exact hread i (List.mem_filter.mp hi).1
  · simp [push]

theorem Ordered.push {h : History α} (ho : Ordered key h) (x : α) : Ordered key (h.push x) := by
  refine ⟨ho.increasing, fun t ht => ?_, fun t ht i hi => ?_⟩
  · have := ho.inRange t ht
    simp only [History.push, List.length_append, List.length_singleton]
    omega
  · rw [live_push ho x, List.mem_append, List.mem_singleton] at hi
    rcases hi with hi | rfl
    · exact ho.beforeLive t ht i (List.mem_filter.mp hi).1
    · exact ho.inRange t ht

/-- Taking the oldest live position leaves the other live ones. -/
theorem live_pop {h : History α} {i : Nat} {rest : List Nat} (hl : h.live key = i :: rest) :
    (h.pop key).live key = rest := by
  have hnd : (h.live key).Pairwise (· < ·) := h.live_increasing
  rw [hl] at hnd
  have hsplit : (h.pop key).live key = (h.live key).filter (fun j => j ≠ i) := by
    simp only [pop, hl]
    rw [← hl]
    simp only [live, List.filter_filter]
    refine List.filter_congr fun j _ => ?_
    by_cases hj : j = i <;> simp [hj]
  rw [hsplit, hl, List.filter_cons_of_neg (by simp), List.filter_eq_self]
  intro j hj
  have := (List.pairwise_cons.mp hnd).1 j hj
  simp only [ne_eq, decide_eq_true_eq]
  omega

theorem pop_accepted (h : History α) : (h.pop key).accepted = h.accepted := by
  unfold pop; split <;> rfl

theorem Ordered.pop {h : History α} (ho : Ordered key h) : Ordered key (h.pop key) := by
  cases hl : h.live key with
  | nil => simpa only [History.pop, hl] using ho
  | cons i rest =>
    have hmem : i ∈ h.live key := by rw [hl]; exact List.mem_cons_self
    have htaken : (h.pop key).taken = h.taken ++ [i] := by simp only [History.pop, hl]
    have hlt : (h.live key).Pairwise (· < ·) := h.live_increasing
    rw [hl] at hlt
    refine ⟨?_, ?_, ?_⟩
    · rw [htaken]
      refine List.pairwise_append.mpr ⟨ho.increasing, by simp, fun t ht j hj => ?_⟩
      rw [List.mem_singleton.mp hj]
      exact ho.beforeLive t ht i hmem
    · intro t ht
      rw [pop_accepted]
      rw [htaken, List.mem_append, List.mem_singleton] at ht
      rcases ht with ht | rfl
      · exact ho.inRange t ht
      · exact live_lt hmem
    · intro t ht j hj
      rw [live_pop hl] at hj
      rw [htaken, List.mem_append, List.mem_singleton] at ht
      rcases ht with ht | rfl
      · exact ho.beforeLive t ht j (by rw [hl]; exact List.mem_cons_of_mem _ hj)
      · exact (List.pairwise_cons.mp hlt).1 j hj

/-- The item at the head of what is held is the one `pop` takes. -/
theorem held_cons {h : History α} {x : α} {rest : List α} (hh : h.held key = x :: rest) :
    ∃ i, (h.pop key).taken = h.taken ++ [i] ∧ h.accepted[i]? = some x ∧
      (h.pop key).held key = rest := by
  cases hl : h.live key with
  | nil => simp [held, hl] at hh
  | cons i is =>
    have hmem : i ∈ h.live key := by rw [hl]; exact List.mem_cons_self
    have hi : i < h.accepted.length := live_lt hmem
    have ha : h.accepted[i]? = some h.accepted[i] := List.getElem?_eq_getElem hi
    rw [held, hl, List.filterMap_cons_some ha] at hh
    obtain ⟨rfl, hrest⟩ := List.cons_eq_cons.mp hh
    refine ⟨i, by simp only [pop, hl], ha, ?_⟩
    rw [held, live_pop hl, pop_accepted]
    exact hrest

end History

end KaizenStation.Foundation
