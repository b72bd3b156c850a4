/-
KaizenStation.Foundation.Outbox — an ordered outbox with a coalescing
backlog, as an abstract protocol.

Items are issued one at a time. An issued item is in hand until it is
delivered directly (only when nothing is pending), stored at the back of the
backlog in place of an older item of its key, rejected by a full backlog, or
discarded because it is volatile. The head of the backlog may be delivered,
offered and refused, or dropped. `Step` is one such move and nothing more;
the environment picks the order.

`Sound` collects what every run keeps: the delivered items, the backlog and
the item in hand stand in the order of issue, every issued item is in exactly
one place, and every loss is justified. `Current` says that, as long as no
item of a key is lost other than to a newer one, the newest item of that key
anywhere is the newest one issued.
-/
import KaizenStation.Foundation.Coalesce
import Mathlib.Data.List.Perm.Subperm
import Mathlib.Logic.Relation

namespace KaizenStation.Foundation

variable {α κ : Type*}

/-- What an outbox knows of its items: their keys, which of them it may
discard, and the room it has. An unavailable backlog refuses everything. -/
structure Policy (α κ : Type*) where
  key : α → Option κ
  volatile : α → Bool
  capacity : Nat
  available : Bool

/-- Why an item was neither delivered nor kept. -/
inductive Loss (α : Type*) where
  | superseded (newer : α)
  | discarded
  | rejected (held : List α)
  | dropped

structure Outbox (α : Type*) where
  issued : List α := []
  attempts : List (α × Bool) := []
  pending : List α := []
  hand : List α := []
  lost : List (α × Loss α) := []

namespace Outbox

/-- The items whose delivery was accepted, in that order. -/
def delivered (o : Outbox α) : List α := (o.attempts.filter (·.2)).map (·.1)

@[simp] theorem delivered_accept (o : Outbox α) (i p h : List α) (x : α) (l : List (α × Loss α)) :
    delivered { issued := i, attempts := o.attempts ++ [(x, true)], pending := p,
                hand := h, lost := l } = o.delivered ++ [x] := by
  simp [delivered]

@[simp] theorem delivered_refuse (o : Outbox α) (i p h : List α) (x : α) (l : List (α × Loss α)) :
    delivered { issued := i, attempts := o.attempts ++ [(x, false)], pending := p,
                hand := h, lost := l } = o.delivered := by
  simp [delivered]

@[simp] theorem delivered_same (o : Outbox α) (i p h : List α) (l : List (α × Loss α)) :
    delivered { issued := i, attempts := o.attempts, pending := p, hand := h, lost := l }
      = o.delivered := rfl

theorem mem_delivered {o : Outbox α} {x : α} : x ∈ o.delivered ↔ (x, true) ∈ o.attempts := by
  simp [delivered]

variable [DecidableEq κ] (P : Policy α κ)

/-- One move of the protocol. -/
inductive Step : Outbox α → Outbox α → Prop where
  | issue {o : Outbox α} (x : α) : o.hand = [] →
      Step o { o with issued := o.issued ++ [x], hand := [x] }
  | deliver {o : Outbox α} {x : α} {rest : List α} : o.pending = x :: rest →
      Step o { o with attempts := o.attempts ++ [(x, true)], pending := rest }
  | refuse {o : Outbox α} {x : α} {rest : List α} : o.pending = x :: rest →
      Step o { o with attempts := o.attempts ++ [(x, false)] }
  | drop {o : Outbox α} {x : α} {rest : List α} : o.pending = x :: rest →
      Step o { o with pending := rest, lost := o.lost ++ [(x, .dropped)] }
  | direct {o : Outbox α} {x : α} : o.hand = [x] → o.pending = [] →
      Step o { o with attempts := o.attempts ++ [(x, true)], hand := [] }
  | directRefused {o : Outbox α} {x : α} : o.hand = [x] → o.pending = [] →
      Step o { o with attempts := o.attempts ++ [(x, false)] }
  | discard {o : Outbox α} {x : α} : o.hand = [x] → P.volatile x = true →
      Step o { o with hand := [], lost := o.lost ++ [(x, .discarded)] }
  | store {o : Outbox α} {x : α} : o.hand = [x] → P.volatile x = false →
      (cleared P.key x o.pending).length < P.capacity →
      Step o { o with
        pending := cleared P.key x o.pending ++ [x]
        hand := []
        lost := o.lost ++
          (o.pending.filter (fun a => SameKey P.key a x)).map (fun a => (a, .superseded x)) }
  | reject {o : Outbox α} {x : α} : o.hand = [x] → P.volatile x = false →
      (P.available = true → P.capacity ≤ o.pending.length ∧
        ∀ a ∈ o.pending, ¬ SameKey P.key a x) →
      Step o { o with hand := [], lost := o.lost ++ [(x, .rejected o.pending)] }

/-- Any number of moves. -/
abbrev Steps : Outbox α → Outbox α → Prop := Relation.ReflTransGen (Step P)

variable {P}

theorem Step.single {o o' : Outbox α} (h : Step P o o') : Steps P o o' :=
  Relation.ReflTransGen.single h

/-- Losses are never taken back. -/
theorem Step.lost_mono {o o' : Outbox α} (h : Step P o o') : ∀ l ∈ o.lost, l ∈ o'.lost := by
  intro l hl
  cases h <;> first | exact hl | exact List.mem_append_left _ hl

/-- Nor are attempts. -/
theorem Step.attempts_grow {o o' : Outbox α} (h : Step P o o') : o.attempts <+: o'.attempts := by
  cases h <;> first | exact List.prefix_rfl | exact List.prefix_append _ _

theorem Steps.lost_mono {o o' : Outbox α} (h : Steps P o o') : ∀ l ∈ o.lost, l ∈ o'.lost := by
  induction h with
  | refl => exact fun l hl => hl
  | tail _ hstep ih => exact fun l hl => hstep.lost_mono l (ih l hl)

theorem Steps.attempts_grow {o o' : Outbox α} (h : Steps P o o') :
    o.attempts <+: o'.attempts := by
  induction h with
  | refl => exact List.prefix_rfl
  | tail _ hstep ih => exact ih.trans hstep.attempts_grow

/-! ## What every run keeps -/

/-- A loss and what makes it legitimate, given everything issued. -/
def Justified (P : Policy α κ) (issued : List α) : α × Loss α → Prop
  | (x, .superseded y) => SameKey P.key x y ∧ [x, y].Sublist issued
  | (x, .discarded) => P.volatile x = true
  | (x, .rejected held) => P.available = true →
      P.capacity ≤ held.length ∧ (∀ a ∈ held, ¬ SameKey P.key a x) ∧
        KeysUnique P.key held ∧ ∀ a ∈ held, a ∈ issued ∧ P.volatile a = false
  | (_, .dropped) => True

omit [DecidableEq κ] in
theorem Justified.mono {issued issued' : List α} {l : α × Loss α}
    (h : Justified P issued l) (hs : issued.Sublist issued') : Justified P issued' l := by
  obtain ⟨x, y | _ | held | _⟩ := l
  · exact ⟨h.1, h.2.trans hs⟩
  · exact h
  · intro havail
    obtain ⟨hfull, hnone, hunique, hheld⟩ := h havail
    exact ⟨hfull, hnone, hunique, fun a ha => ⟨hs.subset (hheld a ha).1, (hheld a ha).2⟩⟩
  · trivial

structure Sound (P : Policy α κ) (o : Outbox α) : Prop where
  unique : KeysUnique P.key o.pending
  bounded : o.pending.length ≤ P.capacity
  inOrder : (o.delivered ++ o.pending ++ o.hand).Sublist o.issued
  accounted : (o.delivered ++ o.pending ++ o.hand ++ o.lost.map Prod.fst).Perm o.issued
  stored : ∀ x ∈ o.pending, P.volatile x = false
  justified : ∀ l ∈ o.lost, Justified P o.issued l
  attempted : ∀ a ∈ o.attempts, a.1 ∈ o.issued

omit [DecidableEq κ] in
theorem sound_empty : Sound P ({} : Outbox α) := by
  refine ⟨List.Pairwise.nil, Nat.zero_le _, ?_, ?_, by simp, by simp, by simp⟩ <;>
    simp [delivered]

theorem Step.unique {o o' : Outbox α} (h : Step P o o') (hu : KeysUnique P.key o.pending) :
    KeysUnique P.key o'.pending := by
  cases h with
  | deliver hp | drop hp => rw [hp] at hu; exact (List.pairwise_cons.mp hu).2
  | store => exact hu.cleared_append _
  | _ => exact hu

theorem Step.bounded {o o' : Outbox α} (h : Step P o o') (hb : o.pending.length ≤ P.capacity) :
    o'.pending.length ≤ P.capacity := by
  cases h with
  | deliver hp | drop hp =>
    rw [hp, List.length_cons] at hb
    exact Nat.le_of_succ_le hb
  | store _ _ hroom =>
    simp only [List.length_append, List.length_singleton]
    omega
  | _ => exact hb

/-- A move only takes items out of the line, but for an issued item, which
joins it at the end. -/
theorem Step.line {o o' : Outbox α} (h : Step P o o') :
    ∃ new, o'.issued = o.issued ++ new ∧
      (o'.delivered ++ o'.pending ++ o'.hand).Sublist
        (o.delivered ++ o.pending ++ o.hand ++ new) := by
  cases h with
  | issue x hh => exact ⟨[x], rfl, by simp [hh]⟩
  | deliver hp => exact ⟨[], by simp, by simp [hp]⟩
  | refuse hp => exact ⟨[], by simp, by simp⟩
  | drop hp =>
    refine ⟨[], by simp, ?_⟩
    simp only [hp, delivered_same, List.append_nil]
    exact ((List.Sublist.refl _).append (List.sublist_cons_self _ _)).append (List.Sublist.refl _)
  | direct hh hp => exact ⟨[], by simp, by simp [hh, hp]⟩
  | directRefused => exact ⟨[], by simp, by simp⟩
  | discard hh | reject hh =>
    refine ⟨[], by simp, ?_⟩
    simp only [delivered_same, List.append_nil]
    exact List.sublist_append_left _ _
  | @store x hh =>
    refine ⟨[], by simp, ?_⟩
    simp only [hh, delivered_same, List.append_nil, ← List.append_assoc]
    exact ((List.Sublist.refl _).append (cleared_sublist x o.pending)).append (List.Sublist.refl _)

theorem Step.inOrder {o o' : Outbox α} (h : Step P o o')
    (hs : (o.delivered ++ o.pending ++ o.hand).Sublist o.issued) :
    (o'.delivered ++ o'.pending ++ o'.hand).Sublist o'.issued := by
  obtain ⟨new, hissued, hline⟩ := h.line
  rw [hissued]
  exact hline.trans (hs.append (List.Sublist.refl _))

theorem Steps.line {o o' : Outbox α} (h : Steps P o o') :
    ∃ new, o'.issued = o.issued ++ new ∧
      (o'.delivered ++ o'.pending ++ o'.hand).Sublist
        (o.delivered ++ o.pending ++ o.hand ++ new) := by
  induction h with
  | refl => exact ⟨[], by simp, by simp⟩
  | tail _ hstep ih =>
    obtain ⟨new, hissued, hline⟩ := ih
    obtain ⟨new', hissued', hline'⟩ := hstep.line
    refine ⟨new ++ new', by rw [hissued', hissued, List.append_assoc], hline'.trans ?_⟩
    rw [← List.append_assoc]
    exact hline.append (List.Sublist.refl _)

/-- Splitting a backlog by what `x` supersedes loses nothing. -/
theorem cleared_perm (x : α) (l : List α) :
    (cleared P.key x l ++ l.filter (fun a => SameKey P.key a x)).Perm l := by
  have h := List.filter_append_perm (fun a => decide (SameKey P.key a x)) l
  refine List.Perm.trans List.perm_append_comm (List.Perm.trans ?_ h)
  simp [cleared]

theorem Step.accounted {o o' : Outbox α} (h : Step P o o')
    (hs : (o.delivered ++ o.pending ++ o.hand ++ o.lost.map Prod.fst).Perm o.issued) :
    (o'.delivered ++ o'.pending ++ o'.hand ++ o'.lost.map Prod.fst).Perm o'.issued := by
  cases h with
  | issue x hh =>
    simp only [hh, List.append_nil, delivered_same] at hs ⊢
    refine List.Perm.trans ?_ (hs.append_right [x])
    simp only [List.append_assoc]
    exact (List.perm_append_comm.append_left _).append_left _
  | deliver hp => simpa [hp] using hs
  | refuse => simpa using hs
  | @drop x rest hp =>
    refine List.Perm.trans ?_ hs
    simp only [hp, delivered_same, List.map_append, List.map_cons, List.map_nil,
      List.append_assoc]
    refine List.Perm.append_left _ ?_
    simp [← List.append_assoc]
  | direct hh hp => simpa [hh, hp] using hs
  | directRefused => simpa using hs
  | discard hh | reject hh =>
    refine List.Perm.trans ?_ hs
    simp only [hh, delivered_same, List.map_append, List.map_cons, List.map_nil,
      List.append_assoc, List.nil_append]
    exact (List.perm_append_comm.append_left _).append_left _
  | @store x hh =>
    refine List.Perm.trans ?_ hs
    simp only [hh, delivered_same, List.append_nil, List.map_append, List.map_map,
      Function.comp_def, List.map_id', List.append_assoc]
    refine List.Perm.append_left _ ?_
    -- the superseded items travel over `x` and the older losses
    have h1 := (cleared_perm (P := P) x o.pending).append_right ([x] ++ o.lost.map Prod.fst)
    refine List.Perm.trans ?_ h1
    simp only [List.append_assoc]
    refine List.Perm.append_left _ ?_
    rw [← List.append_assoc]
    exact List.perm_append_comm

theorem Step.stored {o o' : Outbox α} (h : Step P o o')
    (hs : ∀ x ∈ o.pending, P.volatile x = false) : ∀ x ∈ o'.pending, P.volatile x = false := by
  cases h with
  | deliver hp | drop hp =>
    intro x hx
    exact hs x (hp ▸ List.mem_cons_of_mem _ hx)
  | store _ hv =>
    intro x hx
    rcases List.mem_append.mp hx with hx | hx
    · exact hs x (mem_cleared.mp hx).1
    · rw [List.mem_singleton.mp hx]; exact hv
  | _ => exact hs

theorem Step.issued_sublist {o o' : Outbox α} (h : Step P o o') :
    o.issued.Sublist o'.issued := by
  cases h with
  | issue => exact List.sublist_append_left _ _
  | _ => exact List.Sublist.refl _

theorem Step.justified {o o' : Outbox α} (h : Step P o o') (hs : Sound P o) :
    ∀ l ∈ o'.lost, Justified P o'.issued l := by
  have hold : ∀ l ∈ o.lost, Justified P o'.issued l :=
    fun l hl => (hs.justified l hl).mono h.issued_sublist
  cases h with
  | drop hp =>
    intro l hl
    rcases List.mem_append.mp hl with hl | hl
    · exact hold l hl
    · rw [List.mem_singleton.mp hl]; trivial
  | discard _ hv =>
    intro l hl
    rcases List.mem_append.mp hl with hl | hl
    · exact hold l hl
    · rw [List.mem_singleton.mp hl]; exact hv
  | reject _ _ hv =>
    intro l hl
    rcases List.mem_append.mp hl with hl | hl
    · exact hold l hl
    · rw [List.mem_singleton.mp hl]
      intro havail
      obtain ⟨hfull, hnone⟩ := hv havail
      refine ⟨hfull, hnone, hs.unique, fun a ha => ⟨hs.inOrder.subset ?_, hs.stored a ha⟩⟩
      simp [ha]
  | @store x hh =>
    intro l hl
    rcases List.mem_append.mp hl with hl | hl
    · exact hold l hl
    · obtain ⟨a, ha, rfl⟩ := List.mem_map.mp hl
      obtain ⟨hap, hax⟩ := List.mem_filter.mp ha
      refine ⟨by simpa using hax, List.Sublist.trans ?_ hs.inOrder⟩
      rw [hh, List.append_assoc]
      refine List.Sublist.trans ?_ (List.sublist_append_right _ _)
      exact (List.singleton_sublist.mpr hap).append (List.Sublist.refl [x])
  | _ => exact hold

theorem Step.attempted {o o' : Outbox α} (h : Step P o o') (hs : Sound P o) :
    ∀ a ∈ o'.attempts, a.1 ∈ o'.issued := by
  have hold : ∀ a ∈ o.attempts, a.1 ∈ o'.issued :=
    fun a ha => h.issued_sublist.subset (hs.attempted a ha)
  have hsub := hs.inOrder.subset
  cases h with
  | deliver hp | refuse hp =>
    intro a ha
    rcases List.mem_append.mp ha with ha | ha
    · exact hold a ha
    · rw [List.mem_singleton.mp ha]; exact hsub (by simp [hp])
  | direct hh | directRefused hh =>
    intro a ha
    rcases List.mem_append.mp ha with ha | ha
    · exact hold a ha
    · rw [List.mem_singleton.mp ha]; exact hsub (by simp [hh])
  | _ => exact hold

theorem Step.sound {o o' : Outbox α} (h : Step P o o') (hs : Sound P o) : Sound P o' :=
  ⟨h.unique hs.unique, h.bounded hs.bounded, h.inOrder hs.inOrder, h.accounted hs.accounted,
    h.stored hs.stored, h.justified hs, h.attempted hs⟩

theorem Sound.steps {o o' : Outbox α} (hs : Sound P o) (h : Steps P o o') : Sound P o' := by
  induction h with
  | refl => exact hs
  | tail _ hstep ih => exact hstep.sound ih

/-! ## Where an item is -/

inductive Place (α : Type*) where
  | delivered
  | pending
  | inHand
  | lost (why : Loss α)

/-- All places at which an item with label `i` is, with repetitions. -/
def places {ι : Type*} [DecidableEq ι] (label : α → ι) (o : Outbox α) (i : ι) : List (Place α) :=
  (o.delivered.filter (fun x => label x = i)).map (fun _ => .delivered) ++
  (o.pending.filter (fun x => label x = i)).map (fun _ => .pending) ++
  (o.hand.filter (fun x => label x = i)).map (fun _ => .inHand) ++
  (o.lost.filter (fun l => label l.1 = i)).map (fun l => .lost l.2)

/-- `x` is at this place. -/
def At (o : Outbox α) (x : α) : Place α → Prop
  | .delivered => x ∈ o.delivered
  | .pending => x ∈ o.pending
  | .inHand => x ∈ o.hand
  | .lost why => (x, why) ∈ o.lost

section Places

variable {ι : Type*} [DecidableEq ι] {label : α → ι}

theorem filter_label_eq {l : List α} (hl : (l.map label).Nodup) {x : α} (hx : x ∈ l) :
    l.filter (fun y => label y = label x) = [x] := by
  induction l with
  | nil => cases hx
  | cons y l ih =>
    obtain ⟨hy, hl⟩ := List.nodup_cons.mp hl
    rcases List.mem_cons.mp hx with rfl | hx
    · have hrest : l.filter (fun y => label y = label x) = [] := by
        rw [List.filter_eq_nil_iff]
        intro z hz hzx
        exact hy (of_decide_eq_true hzx ▸ List.mem_map_of_mem hz)
      rw [List.filter_cons_of_pos (by simp), hrest]
    · have hne : ¬ label y = label x := fun h => hy (h ▸ List.mem_map_of_mem hx)
      rw [List.filter_cons_of_neg (by simpa using hne), ih hl hx]

omit [DecidableEq κ] in
/-- With distinct labels an issued item is at exactly one place, and it is
that item which is there. -/
theorem Sound.one_place {o : Outbox α} (hs : Sound P o) (hl : (o.issued.map label).Nodup) {x : α}
    (hx : x ∈ o.issued) : ∃ place, o.places label (label x) = [place] ∧ o.At x place := by
  have hperm := hs.accounted.filter (fun y => decide (label y = label x))
  rw [filter_label_eq hl hx] at hperm
  have heq := List.perm_singleton.mp hperm
  simp only [List.filter_append] at heq
  have hfst : (o.lost.map Prod.fst).filter (fun y => label y = label x) =
      (o.lost.filter (fun l => label l.1 = label x)).map Prod.fst := by
    rw [List.filter_map]
    rfl
  rw [hfst] at heq
  unfold places
  -- exactly one of the four parts is `[x]`
  rcases List.append_eq_singleton_iff.mp heq with ⟨h1, h2⟩ | ⟨h1, h2⟩
  · obtain ⟨h1, h3⟩ := List.append_eq_nil_iff.mp h1
    obtain ⟨h1, h4⟩ := List.append_eq_nil_iff.mp h1
    obtain ⟨⟨y, why⟩, hlost, rfl⟩ := List.map_eq_singleton_iff.mp h2
    refine ⟨.lost why, by rw [h1, h3, h4, hlost]; rfl, ?_⟩
    have hmem : (y, why) ∈ o.lost.filter (fun l => label l.1 = label y) := by
      rw [hlost]; exact List.mem_singleton_self _
    exact (List.mem_filter.mp hmem).1
  · rw [List.map_eq_nil_iff.mp h2]
    rcases List.append_eq_singleton_iff.mp h1 with ⟨h1, h3⟩ | ⟨h1, h3⟩
    · obtain ⟨h1, h4⟩ := List.append_eq_nil_iff.mp h1
      refine ⟨.inHand, by rw [h1, h3, h4]; rfl, ?_⟩
      exact (List.mem_filter.mp (h3 ▸ List.mem_singleton_self x)).1
    · rcases List.append_eq_singleton_iff.mp h1 with ⟨h1, h4⟩ | ⟨h1, h4⟩
      · refine ⟨.pending, by rw [h1, h3, h4]; rfl, ?_⟩
        exact (List.mem_filter.mp (h4 ▸ List.mem_singleton_self x)).1
      · refine ⟨.delivered, by rw [h1, h3, h4]; rfl, ?_⟩
        exact (List.mem_filter.mp (h1 ▸ List.mem_singleton_self x)).1

omit [DecidableEq κ] in
/-- A label that was not issued is nowhere. -/
theorem Sound.no_place {o : Outbox α} (hs : Sound P o) {i : ι}
    (hi : i ∉ o.issued.map label) : o.places label i = [] := by
  have hnone : ∀ x ∈ o.delivered ++ o.pending ++ o.hand ++ o.lost.map Prod.fst, label x ≠ i := by
    intro x hx hxi
    exact hi (List.mem_map.mpr ⟨x, hs.accounted.subset hx, hxi⟩)
  have h1 : o.delivered.filter (fun x => label x = i) = [] :=
    List.filter_eq_nil_iff.mpr fun x hx => by simpa using hnone x (by simp [hx])
  have h2 : o.pending.filter (fun x => label x = i) = [] :=
    List.filter_eq_nil_iff.mpr fun x hx => by simpa using hnone x (by simp [hx])
  have h3 : o.hand.filter (fun x => label x = i) = [] :=
    List.filter_eq_nil_iff.mpr fun x hx => by simpa using hnone x (by simp [hx])
  have h4 : o.lost.filter (fun l => label l.1 = i) = [] :=
    List.filter_eq_nil_iff.mpr fun l hl => by
      have hmem : l.1 ∈ o.lost.map Prod.fst := List.mem_map_of_mem hl
      simpa using hnone l.1 (List.mem_append_right _ hmem)
  rw [places, h1, h2, h3, h4]
  rfl

end Places

/-! ## The newest item of a key -/

/-- Every item of the key that was lost was lost to a newer one. -/
def OnlySuperseded (P : Policy α κ) (k : κ) (o : Outbox α) : Prop :=
  ∀ l ∈ o.lost, P.key l.1 = some k → ∃ y, l.2 = .superseded y

/-- The newest item of a key among those delivered, pending and in hand. -/
def newest (P : Policy α κ) (k : κ) (l : List α) : Option α :=
  (l.filter (fun a => P.key a = some k)).getLast?

def Current (P : Policy α κ) (k : κ) (o : Outbox α) : Prop :=
  OnlySuperseded P k o →
    newest P k (o.delivered ++ o.pending ++ o.hand) = newest P k o.issued

theorem newest_append_singleton {k : κ} {l l' : List α} (x : α)
    (h : newest P k l = newest P k l') : newest P k (l ++ [x]) = newest P k (l' ++ [x]) := by
  by_cases hx : P.key x = some k
  · simp [newest, List.filter_append, hx]
  · simpa [newest, List.filter_append, hx] using h

theorem newest_append_other {k : κ} (l : List α) {x : α} (hx : P.key x ≠ some k) :
    newest P k (l ++ [x]) = newest P k l := by
  simp [newest, List.filter_append, hx]

/-- What `x` supersedes never includes items of another key. -/
theorem filter_key_cleared {k : κ} {x : α} (hx : P.key x ≠ some k) (l : List α) :
    (cleared P.key x l).filter (fun a => P.key a = some k) =
      l.filter (fun a => P.key a = some k) := by
  rw [cleared, List.filter_filter]
  refine List.filter_congr fun a _ => ?_
  by_cases ha : P.key a = some k
  · have : ¬ SameKey P.key a x := fun h => hx (h.2 ▸ ha)
    simp [ha, this]
  · simp [ha]

theorem Step.current {o o' : Outbox α} (k : κ) (h : Step P o o') (hc : Current P k o) :
    Current P k o' := by
  intro hl'
  have hc := hc fun l hl => hl' l (h.lost_mono l hl)
  cases h with
  | issue x hh =>
    simp only [hh, List.append_nil, delivered_same] at hc ⊢
    exact newest_append_singleton x hc
  | deliver hp => simpa [hp] using hc
  | refuse => simpa using hc
  | @drop x rest hp =>
    -- the dropped head is of another key, since such a loss is no supersession
    have hx : P.key x ≠ some k := fun hk => by
      obtain ⟨y, hy⟩ := hl' (x, .dropped) (by simp) hk
      cases hy
    rw [← hc]
    simp [newest, hp, List.filter_append, hx]
  | direct hh hp => simpa [hh, hp] using hc
  | directRefused => simpa using hc
  | @discard x hh =>
    have hx : P.key x ≠ some k := fun hk => by
      obtain ⟨y, hy⟩ := hl' (x, .discarded) (by simp) hk
      cases hy
    rw [← hc, hh, newest_append_other _ hx, List.append_nil]
    rfl
  | @reject x hh =>
    have hx : P.key x ≠ some k := fun hk => by
      obtain ⟨y, hy⟩ := hl' (x, .rejected o.pending) (by simp) hk
      cases hy
    rw [← hc, hh, newest_append_other _ hx, List.append_nil]
    rfl
  | @store x hh =>
    rw [← hc]
    by_cases hx : P.key x = some k
    · simp [newest, hh, List.filter_append, hx]
    · simp [newest, hh, List.filter_append, hx, filter_key_cleared hx]

omit [DecidableEq κ] in
/-- With a place for every key that waits, nothing of a key that waits is
rejected, and then only supersession loses an item of it. -/
theorem Sound.onlySuperseded {o : Outbox α} (hs : Sound P o) (havail : P.available = true)
    (keys : List κ) (hdropped : ∀ x, (x, Loss.dropped) ∉ o.lost)
    (hkeys : ∀ x ∈ o.issued, P.volatile x = false → ∃ k ∈ keys, P.key x = some k)
    (hroom : keys.length ≤ P.capacity) {k : κ}
    (hk : ∀ x ∈ o.issued, P.key x = some k → P.volatile x = false) : OnlySuperseded P k o := by
  rintro ⟨x, why⟩ hl hx
  have hissued : x ∈ o.issued := hs.accounted.subset
    (List.mem_append_right _ (List.mem_map_of_mem hl))
  have hfixed := hk x hissued hx
  have hj := hs.justified _ hl
  cases why with
  | superseded y => exact ⟨y, rfl⟩
  | discarded => exact absurd (hfixed.symm.trans hj) (by simp)
  | dropped => exact absurd hl (hdropped x)
  | rejected held =>
    exfalso
    obtain ⟨hfull, hnone, hunique, hheld⟩ := hj havail
    have hsome : ∀ a ∈ held, ∃ k' ∈ keys, P.key a = some k' := fun a ha =>
      hkeys a (hheld a ha).1 (hheld a ha).2
    -- the rejected item and all that were held have different keys
    have hnodup : ((x :: held).map P.key).Nodup := by
      rw [List.map_cons, List.nodup_cons]
      constructor
      · intro hmem
        obtain ⟨a, ha, hax⟩ := List.mem_map.mp hmem
        exact hnone a ha ⟨by rw [hax, hx]; simp, hax⟩
      · rw [List.Nodup, List.pairwise_map]
        refine List.Pairwise.imp_of_mem ?_ hunique
        intro a b ha _ hab hkey
        obtain ⟨k', -, hk'⟩ := hsome a ha
        exact hab ⟨by rw [hk']; simp, hkey⟩
    have hsub : (x :: held).map P.key ⊆ keys.map some := by
      intro c hc
      obtain ⟨a, ha, rfl⟩ := List.mem_map.mp hc
      obtain ⟨k', hk', hak⟩ : ∃ k' ∈ keys, P.key a = some k' := by
        rcases List.mem_cons.mp ha with rfl | ha
        · exact hkeys a hissued hfixed
        · exact hsome a ha
      rw [hak]
      exact List.mem_map_of_mem hk'
    have hlen := (List.subperm_of_subset hnodup hsub).length_le
    simp only [List.length_map, List.length_cons] at hlen
    omega

theorem Current.steps {o o' : Outbox α} {k : κ} (hc : Current P k o) (h : Steps P o o') :
    Current P k o' := by
  induction h with
  | refl => exact hc
  | tail _ hstep ih => exact hstep.current k ih

end Outbox

end KaizenStation.Foundation
