/-
KaizenStation.Firmware.OfflineEventStoreTheorems — what the offline buffer
holds after any sequence of calls.

`push_stored` and `push_refused` say once what a push can do to a
well-formed store. `Observed` runs a store and notes what its callers see:
the pushes it accepted and the events it popped, both since the last clear.
`run_represents` ties every such run to a `History` of the foundation, so
the buffer is exactly the accepted pushes that were neither popped nor
superseded.

The erased events are counted in a `std::size_t`, hence modulo 2^32.
-/
import KaizenStation.Foundation.Coalesce
import KaizenStation.Firmware.OfflineEventStore

namespace KaizenStation.Firmware

open KaizenStation.Foundation

/-- The coalescing key: the source, unless it is the system source. -/
def Event.key (event : Event) : Option UInt32 :=
  if event.sourceId = OfflineEventStore.SYSTEM_SOURCE_ID then none else some event.sourceId

theorem Event.key_eq_none {event : Event} : event.key = none ↔ event.sourceId = 0 := by
  unfold Event.key OfflineEventStore.SYSTEM_SOURCE_ID
  split <;> simp_all

theorem Event.key_eq_some {event : Event} {id : UInt32} :
    event.key = some id ↔ event.sourceId = id ∧ id ≠ 0 := by
  unfold Event.key OfflineEventStore.SYSTEM_SOURCE_ID
  by_cases h : event.sourceId = 0
  · simp only [if_pos h, reduceCtorEq, false_iff, not_and, not_not]
    exact fun h' => h' ▸ h
  · simp only [if_neg h, Option.some.injEq, iff_self_and]
    exact fun h' => h' ▸ h

theorem sameKey_iff {a b : Event} :
    SameKey Event.key a b ↔ a.sourceId = b.sourceId ∧ b.sourceId ≠ 0 := by
  constructor
  · rintro ⟨hne, heq⟩
    cases hb : b.key with
    | none => exact absurd (heq.trans hb) hne
    | some id =>
      obtain ⟨ha, _⟩ := Event.key_eq_some.mp (heq.trans hb)
      obtain ⟨hb, hid⟩ := Event.key_eq_some.mp hb
      exact ⟨ha.trans hb.symm, hb ▸ hid⟩
  · rintro ⟨hab, hb⟩
    have hkb : b.key = some b.sourceId := Event.key_eq_some.mpr ⟨rfl, hb⟩
    have hka : a.key = some b.sourceId := Event.key_eq_some.mpr ⟨hab, hb⟩
    exact ⟨by rw [hka]; simp, hka.trans hkb.symm⟩

namespace OfflineEventStore

/-- The bound and the per-source uniqueness every reachable store has. -/
structure WellFormed (s : OfflineEventStore) : Prop where
  bounded : s.events.length ≤ s.capacity
  unique : KeysUnique Event.key s.events

theorem create_wellFormed (capacity : Nat) (mutex : Bool) :
    (create capacity mutex).WellFormed :=
  ⟨Nat.zero_le _, List.Pairwise.nil⟩

/-! ## The accessors of a store whose mutex works -/

@[simp] theorem peek_of_mutex {s : OfflineEventStore} (h : s.mutex = true) :
    s.peek = s.events.head? := by simp [peek, lock, h]

@[simp] theorem empty_of_mutex {s : OfflineEventStore} (h : s.mutex = true) :
    s.empty = s.events.isEmpty := by simp [empty, lock, h]

@[simp] theorem size_of_mutex {s : OfflineEventStore} (h : s.mutex = true) :
    s.size = s.events.length := by simp [size, lock, h]

@[simp] theorem coalescedCount_of_mutex {s : OfflineEventStore} (h : s.mutex = true) :
    s.coalescedCount = s.coalesced := by simp [coalescedCount, lock, h]

theorem pop_cons {s : OfflineEventStore} {event : Event} {rest : List Event}
    (hm : s.mutex = true) (h : s.events = event :: rest) :
    s.pop = ({ s with events := rest }, some event) := by
  simp [pop, lock, hm, h]

theorem pop_nil {s : OfflineEventStore} (h : s.events = []) : s.pop = (s, none) := by
  unfold pop
  split
  · rfl
  · simp [h]

@[simp] theorem pop_mutex (s : OfflineEventStore) : s.pop.1.mutex = s.mutex := by
  unfold pop
  split
  · rfl
  · split <;> rfl

@[simp] theorem pop_capacity (s : OfflineEventStore) : s.pop.1.capacity = s.capacity := by
  unfold pop
  split
  · rfl
  · split <;> rfl

/-! ## What a push does -/

/-- The predicate of the loop in `push` is the abstract one. -/
theorem supersededBy_eq (s : OfflineEventStore) (event : Event) :
    s.supersededBy event = s.events.find? (fun it => SameKey Event.key it event) := by
  unfold supersededBy
  split
  · next h =>
    congr 1
    funext it
    simp [sameKey_iff, show event.sourceId ≠ 0 from h, beq_eq_decide]
  · next h =>
    have h0 : event.sourceId = 0 := not_not.mp h
    symm
    rw [List.find?_eq_none]
    intro it _
    simp [sameKey_iff, h0]

theorem coalesce_capacity (s : OfflineEventStore) (event : Event) :
    (s.coalesce event).capacity = s.capacity := by
  unfold coalesce; split <;> rfl

theorem coalesce_mutex (s : OfflineEventStore) (event : Event) :
    (s.coalesce event).mutex = s.mutex := by
  unfold coalesce; split <;> rfl

/-- Erasing the first match and stopping clears the source, because a source
never has two events in a well-formed store. -/
theorem coalesce_events {s : OfflineEventStore} (hs : s.WellFormed) (event : Event) :
    (s.coalesce event).events = cleared Event.key event s.events := by
  unfold coalesce
  split
  · next old h =>
    rw [supersededBy_eq] at h
    have hfound := List.find?_some h
    obtain ⟨_, hid⟩ := sameKey_iff.mp (of_decide_eq_true hfound)
    have hpred : (fun it : Event => it.sourceId == event.sourceId) =
        fun it => decide (SameKey Event.key it event) := by
      funext it
      simp [sameKey_iff, hid, beq_eq_decide]
    rw [← eraseP_eq_cleared hs.unique event, hpred]
  · next h =>
    rw [supersededBy_eq, List.find?_eq_none] at h
    exact (cleared_eq_self fun a ha => by simpa using h a ha).symm

theorem coalesce_of_none {s : OfflineEventStore} {event : Event}
    (h : s.supersededBy event = none) : s.coalesce event = s := by
  unfold coalesce
  rw [h]

theorem coalesce_coalesced (s : OfflineEventStore) (event : Event) :
    (s.coalesce event).coalesced =
      s.coalesced + UInt32.ofNat (s.supersededBy event).toList.length := by
  unfold coalesce
  split
  · next h => simp [h]
  · next h => simp [h]

/-- The events of a well-formed store that a push of `event` erases. -/
theorem filter_sameKey_eq {s : OfflineEventStore} (hs : s.WellFormed) (event : Event) :
    s.events.filter (fun it => SameKey Event.key it event) = (s.supersededBy event).toList := by
  rw [supersededBy_eq]
  exact filter_sameKey_eq_find? hs.unique event

/-- A push that finds room, after clearing the source, stores the event at
the back. -/
theorem push_stored {s : OfflineEventStore} (hs : s.WellFormed) (hm : s.mutex = true)
    {event : Event} (hroom : (cleared Event.key event s.events).length < s.capacity) :
    s.push event =
      ({ s with
          events := cleared Event.key event s.events ++ [event]
          coalesced := s.coalesced + UInt32.ofNat (s.supersededBy event).toList.length },
       true) := by
  have hev := coalesce_events hs event
  have hcap := coalesce_capacity s event
  have hmut := coalesce_mutex s event
  have hco := coalesce_coalesced s event
  simp only [push, lock, hm, Bool.not_true, Bool.false_eq_true, if_false]
  rw [if_neg (by rw [hev, hcap]; omega), hev, hcap, hmut, hco, hm]

/-- A push that finds no room erased nothing: the store was full and held no
event of the source. -/
theorem no_room {s : OfflineEventStore} (hs : s.WellFormed) {event : Event}
    (hfull : s.capacity ≤ (cleared Event.key event s.events).length) :
    s.events.length = s.capacity ∧ (∀ a ∈ s.events, ¬ SameKey Event.key a event) ∧
      s.supersededBy event = none := by
  have hsub : (cleared Event.key event s.events).Sublist s.events := cleared_sublist event s.events
  have hlen : s.events.length = s.capacity := by
    have := hsub.length_le
    have := hs.bounded
    omega
  have heq : cleared Event.key event s.events = s.events :=
    hsub.eq_of_length_le (by have := hs.bounded; omega)
  have hnone : ∀ a ∈ s.events, ¬ SameKey Event.key a event := fun a ha =>
    (mem_cleared.mp (heq.symm ▸ ha)).2
  refine ⟨hlen, hnone, ?_⟩
  rw [supersededBy_eq, List.find?_eq_none]
  exact fun a ha => by simpa using hnone a ha

/-- A refused push leaves the store as it was. -/
theorem push_refused {s : OfflineEventStore} (hs : s.WellFormed) {event : Event}
    (hfull : s.capacity ≤ (cleared Event.key event s.events).length) :
    s.push event = (s, false) := by
  obtain ⟨hlen, _, hnone⟩ := no_room hs hfull
  unfold push
  split
  · rfl
  · simp only [coalesce_of_none hnone]
    rw [if_pos (by omega)]

theorem push_of_no_mutex {s : OfflineEventStore} (hm : s.mutex = false) (event : Event) :
    s.push event = (s, false) := by
  simp [push, lock, hm]

/-- The two answers of a push on a well-formed store with a working mutex. -/
theorem push_cases {s : OfflineEventStore} (hs : s.WellFormed) (hm : s.mutex = true)
    (event : Event) :
    ((cleared Event.key event s.events).length < s.capacity ∧ (s.push event).2 = true ∧
      (s.push event).1.events = cleared Event.key event s.events ++ [event]) ∨
    (s.events.length = s.capacity ∧ (∀ a ∈ s.events, ¬ SameKey Event.key a event) ∧
      s.push event = (s, false)) := by
  by_cases hroom : (cleared Event.key event s.events).length < s.capacity
  · exact .inl ⟨hroom, by rw [push_stored hs hm hroom], by rw [push_stored hs hm hroom]⟩
  · have hfull := Nat.le_of_not_lt hroom
    obtain ⟨hlen, hnone, _⟩ := no_room hs hfull
    exact .inr ⟨hlen, hnone, push_refused hs hfull⟩

theorem WellFormed.push {s : OfflineEventStore} (hs : s.WellFormed) (event : Event) :
    (s.push event).1.WellFormed := by
  cases hm : s.mutex with
  | false => rw [push_of_no_mutex hm]; exact hs
  | true =>
    by_cases hroom : (cleared Event.key event s.events).length < s.capacity
    · rw [push_stored hs hm hroom]
      refine ⟨?_, hs.unique.cleared_append event⟩
      simp only [List.length_append, List.length_singleton]
      omega
    · rw [push_refused hs (Nat.le_of_not_lt hroom)]
      exact hs

theorem WellFormed.pop {s : OfflineEventStore} (hs : s.WellFormed) : s.pop.1.WellFormed := by
  unfold OfflineEventStore.pop
  split
  · exact hs
  · split
    · exact hs
    · next h =>
      have hb := hs.bounded
      have hu := hs.unique
      rw [h] at hb hu
      exact ⟨by simp only [List.length_cons] at hb ⊢; omega, (List.pairwise_cons.mp hu).2⟩

theorem WellFormed.clear {s : OfflineEventStore} (hs : s.WellFormed) : s.clear.WellFormed := by
  unfold OfflineEventStore.clear
  split
  · exact hs
  · exact ⟨Nat.zero_le _, List.Pairwise.nil⟩

end OfflineEventStore

/-! ## Runs of a store -/

/-- One call on the store. -/
inductive StoreCall where
  | push (event : Event)
  | pop
  | peek
  | clear

/-- A store and what its callers saw since the last clear. -/
structure Observed where
  store : OfflineEventStore
  accepted : List Event := []
  popped : List Event := []

namespace Observed

def step (o : Observed) : StoreCall → Observed
  | .push event =>
    { o with
      store := (o.store.push event).1
      accepted := if (o.store.push event).2 then o.accepted ++ [event] else o.accepted }
  | .pop =>
    { o with
      store := o.store.pop.1
      popped := o.popped ++ o.store.pop.2.toList }
  | .peek => o
  | .clear => { store := o.store.clear }

def run (o : Observed) (calls : List StoreCall) : Observed := calls.foldl step o

/-- A store straight from its constructor, with a mutex. -/
def fresh (capacity : Nat) : Observed := { store := OfflineEventStore.create capacity }

/-- The observations of a store and a history of the same accepted pushes:
the popped events are the taken positions, and the buffer is what the
history still holds. -/
structure Represents (o : Observed) (h : History Event) : Prop where
  mutex : o.store.mutex = true
  wellFormed : o.store.WellFormed
  accepted : o.accepted = h.accepted
  popped : o.popped.map some = h.taken.map (h.accepted[·]?)
  events : o.store.events = h.held Event.key
  ordered : h.Ordered Event.key
  coalesced : Coalesced Event.key o.accepted (o.popped ++ o.store.events)
  counted : ∃ n, o.store.coalesced = UInt32.ofNat n ∧
    o.accepted.length = o.popped.length + o.store.events.length + n

theorem fresh_represents (capacity : Nat) : Represents (fresh capacity) {} :=
  ⟨rfl, OfflineEventStore.create_wellFormed _ _, rfl, rfl, rfl, History.ordered_empty,
    Coalesced.nil, 0, rfl, rfl⟩

/-- Clearing a source removes as many events as the push superseded. -/
theorem length_cleared_add {s : OfflineEventStore} (hs : s.WellFormed) (event : Event) :
    (cleared Event.key event s.events).length + (s.supersededBy event).toList.length =
      s.events.length := by
  rw [← OfflineEventStore.filter_sameKey_eq hs event]
  have := List.length_eq_length_filter_add (l := s.events)
    (fun it => decide (SameKey Event.key it event))
  simp only [cleared, decide_not]
  omega

theorem push_represents {o : Observed} {h : History Event} (hr : Represents o h) {event : Event}
    (hroom : (cleared Event.key event o.store.events).length < o.store.capacity) :
    Represents (o.step (.push event)) (h.push event) := by
  have hp := OfflineEventStore.push_stored hr.wellFormed hr.mutex hroom
  have hw := hr.wellFormed.push event
  obtain ⟨n, hn, hlen⟩ := hr.counted
  have hcl := length_cleared_add hr.wellFormed event
  rw [hp] at hw
  simp only [step, hp, if_true]
  refine ⟨hr.mutex, hw, ?_, ?_, ?_, hr.ordered.push event,
    hr.coalesced.push event _ _ rfl, n + (o.store.supersededBy event).toList.length, ?_, ?_⟩
  · simp [History.push, hr.accepted]
  · rw [hr.popped]
    refine List.map_congr_left fun t ht => ?_
    exact (List.getElem?_append_left (hr.ordered.inRange t ht)).symm
  · rw [History.held_push hr.ordered, ← hr.events]
  · simp [hn, UInt32.ofNat_add]
  · simp only [List.length_append, List.length_singleton]
    omega

theorem pop_represents {o : Observed} {h : History Event} (hr : Represents o h) {event : Event}
    {rest : List Event} (he : o.store.events = event :: rest) :
    Represents (o.step .pop) (h.pop Event.key) := by
  have hp := OfflineEventStore.pop_cons hr.mutex he
  have hw := hr.wellFormed.pop
  obtain ⟨i, htaken, hi, hheld⟩ := History.held_cons (hr.events ▸ he)
  obtain ⟨n, hn, hlen⟩ := hr.counted
  rw [hp] at hw
  simp only [step, hp, Option.toList_some]
  refine ⟨hr.mutex, hw, ?_, ?_, hheld.symm, hr.ordered.pop, ?_, n, hn, ?_⟩
  · rw [History.pop_accepted, hr.accepted]
  · rw [htaken, History.pop_accepted]
    simp [hr.popped, hi]
  · simpa [he] using hr.coalesced
  · simp only [List.length_append, List.length_singleton]
    rw [he, List.length_cons] at hlen
    omega

/-- After a clear the history starts again. -/
theorem clear_represents {o : Observed} {h : History Event} (hr : Represents o h) :
    Represents (o.step .clear) {} := by
  have hc : o.store.clear = { o.store with events := [], coalesced := 0 } := by
    simp [OfflineEventStore.clear, OfflineEventStore.lock, hr.mutex]
  have hw := hr.wellFormed.clear
  rw [hc] at hw
  simp only [step, hc]
  exact ⟨hr.mutex, hw, rfl, rfl, rfl, History.ordered_empty, Coalesced.nil, 0, rfl, rfl⟩

/-- One call keeps the store and its history together. -/
theorem step_represents {o : Observed} {h : History Event} (hr : Represents o h)
    (call : StoreCall) : ∃ h', Represents (o.step call) h' := by
  cases call with
  | push event =>
    by_cases hroom : (cleared Event.key event o.store.events).length < o.store.capacity
    · exact ⟨_, push_represents hr hroom⟩
    · refine ⟨h, ?_⟩
      simp only [step, OfflineEventStore.push_refused hr.wellFormed (Nat.le_of_not_lt hroom)]
      exact hr
  | pop =>
    cases he : o.store.events with
    | nil =>
      refine ⟨h, ?_⟩
      simpa [step, OfflineEventStore.pop_nil he] using hr
    | cons event rest => exact ⟨_, pop_represents hr he⟩
  | peek => exact ⟨h, hr⟩
  | clear => exact ⟨_, clear_represents hr⟩

/-- Every run of a store is represented by some history. -/
theorem run_represents {o : Observed} {h : History Event} (hr : Represents o h)
    (calls : List StoreCall) : ∃ h', Represents (o.run calls) h' := by
  induction calls generalizing o h with
  | nil => exact ⟨h, hr⟩
  | cons call calls ih =>
    obtain ⟨h', hr'⟩ := step_represents hr call
    exact ih hr'

/-- A fresh store after any run, with the history it stands for. -/
theorem fresh_run_represents (capacity : Nat) (calls : List StoreCall) :
    ∃ h, Represents ((fresh capacity).run calls) h :=
  run_represents (fresh_represents capacity) calls

theorem step_capacity (o : Observed) (call : StoreCall) :
    (o.step call).store.capacity = o.store.capacity := by
  cases call with
  | push event =>
    simp only [step, OfflineEventStore.push]
    split
    · rfl
    · split <;> exact OfflineEventStore.coalesce_capacity _ _
  | pop => simp [step]
  | peek => rfl
  | clear => simp only [step, OfflineEventStore.clear]; split <;> rfl

theorem run_capacity (o : Observed) (calls : List StoreCall) :
    (o.run calls).store.capacity = o.store.capacity := by
  induction calls generalizing o with
  | nil => rfl
  | cons call calls ih =>
    rw [show o.run (call :: calls) = (o.step call).run calls from rfl, ih, step_capacity]

end Observed

/-- A well-formed store buffers at most one event of a physical source. -/
theorem OfflineEventStore.WellFormed.one_per_source {s : OfflineEventStore} (hs : s.WellFormed)
    {id : UInt32} (hid : id ≠ 0) : (s.events.filter (fun e => e.sourceId = id)).length ≤ 1 := by
  have hall : ∀ e ∈ s.events.filter (fun e => e.sourceId = id), e.sourceId = id := fun e he => by
    simpa using (List.mem_filter.mp he).2
  have hu : (s.events.filter (fun e => e.sourceId = id)).Pairwise
      (fun a b => ¬ SameKey Event.key a b) := List.Pairwise.sublist List.filter_sublist hs.unique
  generalize s.events.filter (fun e => e.sourceId = id) = l at hall hu
  match l with
  | [] => simp
  | [_] => simp
  | a :: b :: rest =>
    have ha := hall a (by simp)
    have hb := hall b (by simp)
    have hab := (List.pairwise_cons.mp hu).1 b List.mem_cons_self
    exact absurd (sameKey_iff.mpr ⟨ha.trans hb.symm, hb ▸ hid⟩) hab

theorem OfflineEventStore.WellFormed.filter_source {s : OfflineEventStore} (hs : s.WellFormed)
    {event : Event} (hid : event.sourceId ≠ 0) (h : event ∈ s.events) :
    s.events.filter (fun e => e.sourceId = event.sourceId) = [event] := by
  have hlen := hs.one_per_source hid
  have hmem : event ∈ s.events.filter (fun e => e.sourceId = event.sourceId) :=
    List.mem_filter.mpr ⟨h, decide_eq_true rfl⟩
  match hl : s.events.filter (fun e => e.sourceId = event.sourceId) with
  | [] => rw [hl] at hmem; cases hmem
  | [b] => rw [hl] at hmem; cases List.mem_singleton.mp hmem; exact hl
  | b :: c :: rest => rw [hl] at hlen; simp at hlen

open Observed in
/-- After any run of a fresh store: the bound, one event per physical
source, the order of the pushes, the exact contents, the system events
untouched, and the count of what was erased, which is a 32-bit one. -/
theorem store_run_refines_history (capacity : Nat) (calls : List StoreCall) :
    let o := (fresh capacity).run calls
    o.store.size ≤ capacity ∧
    (∀ id, id ≠ 0 → (o.store.events.filter (fun e => e.sourceId = id)).length ≤ 1) ∧
    o.store.events.Sublist o.accepted ∧
    (∃ taken : List Nat, taken.Pairwise (· < ·) ∧
      o.popped.map some = taken.map (o.accepted[·]?) ∧
      o.store.events = History.held Event.key { accepted := o.accepted, taken := taken }) ∧
    (o.popped ++ o.store.events).filter (fun e => e.sourceId = 0) =
      o.accepted.filter (fun e => e.sourceId = 0) ∧
    o.accepted.length % 2 ^ 32 =
      (o.popped.length + o.store.size + o.store.coalescedCount.toNat) % 2 ^ 32 ∧
    (o.accepted.length < o.popped.length + o.store.size + 2 ^ 32 →
      o.accepted.length = o.popped.length + o.store.size + o.store.coalescedCount.toNat) := by
  intro o
  obtain ⟨h, hr⟩ := fresh_run_represents capacity calls
  have hcap : o.store.capacity = capacity := run_capacity (fresh capacity) calls
  have hsize : o.store.size = o.store.events.length := OfflineEventStore.size_of_mutex hr.mutex
  have hcount : o.store.coalescedCount = o.store.coalesced :=
    OfflineEventStore.coalescedCount_of_mutex hr.mutex
  obtain ⟨n, hn, hlen⟩ := hr.counted
  have hn : o.store.coalesced.toNat = n % 2 ^ 32 := by
    have : o.store.coalesced = UInt32.ofNat n := hn
    rw [this, UInt32.toNat_ofNat']
  have hlen : o.accepted.length = o.popped.length + o.store.events.length + n := hlen
  have hsub : (o.popped ++ o.store.events).Sublist o.accepted := hr.coalesced.sublist
  refine ⟨?_, fun id hid => hr.wellFormed.one_per_source hid,
    (List.sublist_append_right _ _).trans hsub, ⟨h.taken, hr.ordered.increasing, ?_, ?_⟩,
    ?_, ?_, ?_⟩
  · rw [hsize, ← hcap]; exact hr.wellFormed.bounded
  · exact hr.accepted ▸ hr.popped
  · have : (⟨o.accepted, h.taken⟩ : History Event) = h := by
      rw [show o.accepted = _ from hr.accepted]
    rw [this]; exact hr.events
  · refine hr.coalesced.filter_eq _ fun e _ he => Event.key_eq_none.mpr (by simpa using he)
  · rw [hsize, hcount, hn, hlen]; omega
  · rw [hsize, hcount, hn, hlen]; omega

/-- A slider and an encoder move during an outage; one event is sent. -/
theorem store_run_refines_history_outage :
    let o := (Observed.fresh 2).run
      [.push { sourceId := 3, value := 10 }, .push { sourceId := 4, value := 55 },
       .push { sourceId := 4, value := 99 }, .pop]
    o.store.size ≤ 2 ∧ o.accepted.length =
      o.popped.length + o.store.size + o.store.coalescedCount.toNat := by
  intro o
  have h := store_run_refines_history 2
    [.push { sourceId := 3, value := 10 }, .push { sourceId := 4, value := 55 },
     .push { sourceId := 4, value := 99 }, .pop]
  exact ⟨h.1, h.2.2.2.2.2.2 (by decide)⟩

/-! ### Rejected pushes -/

/-- A push has no room exactly if the store is full and the event would
replace nothing. -/
theorem OfflineEventStore.no_room_iff {s : OfflineEventStore} (hs : s.WellFormed) (event : Event) :
    ¬ (cleared Event.key event s.events).length < s.capacity ↔
      s.events.length = s.capacity ∧
        (event.sourceId = 0 ∨ ∀ buffered ∈ s.events, buffered.sourceId ≠ event.sourceId) := by
  constructor
  · intro hroom
    obtain ⟨hlen, hnone, -⟩ := OfflineEventStore.no_room hs (Nat.le_of_not_lt hroom)
    refine ⟨hlen, or_iff_not_imp_left.mpr fun hsystem buffered hin hsame => ?_⟩
    exact hnone buffered hin (sameKey_iff.mpr ⟨hsame, hsystem⟩)
  · rintro ⟨hlen, hnone⟩
    have hkept : cleared Event.key event s.events = s.events := by
      refine cleared_eq_self fun buffered hin hsame => ?_
      obtain ⟨hsource, hsystem⟩ := sameKey_iff.mp hsame
      exact hnone.elim hsystem fun hother => hother buffered hin hsource
    rw [hkept, hlen]
    exact Nat.lt_irrefl _

open Observed in
/-- After any run of a fresh store: a push is rejected exactly if the store
is full and holds nothing that the event replaces, and it then changes
nothing. A push that erased an event is accepted. -/
theorem rejected_push_unchanged (capacity : Nat) (calls : List StoreCall) (event : Event) :
    let s := ((fresh capacity).run calls).store
    ((s.push event).2 = false ↔ s.events.length = capacity ∧
      (event.sourceId = 0 ∨ ∀ buffered ∈ s.events, buffered.sourceId ≠ event.sourceId)) ∧
    ((s.push event).2 = false → (s.push event).1.events = s.events ∧
      (s.push event).1.coalescedCount = s.coalescedCount) ∧
    ((s.coalesce event).events ≠ s.events → (s.push event).2 = true) := by
  intro s
  obtain ⟨h, hr⟩ := fresh_run_represents capacity calls
  have hcap : s.capacity = capacity := run_capacity (fresh capacity) calls
  have hroom := OfflineEventStore.no_room_iff hr.wellFormed event
  by_cases hlt : (cleared Event.key event s.events).length < s.capacity
  · have hsent : (s.push event).2 = true := by
      rw [OfflineEventStore.push_stored hr.wellFormed hr.mutex hlt]
    refine ⟨⟨fun hrefused => ?_, fun hfull => ?_⟩, fun hrefused => ?_, fun _ => hsent⟩
    · exact absurd (hsent.symm.trans hrefused) (by simp)
    · rw [← hcap] at hfull
      exact absurd hlt (hroom.mpr hfull)
    · exact absurd (hsent.symm.trans hrefused) (by simp)
  · have hfull := Nat.le_of_not_lt hlt
    rw [OfflineEventStore.push_refused hr.wellFormed hfull]
    refine ⟨⟨fun _ => hcap ▸ hroom.mp hlt, fun _ => rfl⟩, fun _ => ⟨rfl, rfl⟩, fun herased => ?_⟩
    -- nothing is erased where there is no room
    obtain ⟨-, -, hnone⟩ := OfflineEventStore.no_room hr.wellFormed hfull
    have hkept := OfflineEventStore.coalesce_of_none hnone
    exact absurd (congrArg OfflineEventStore.events hkept) herased

/-! ### The counter wraps

One source pushed over and over: the buffer keeps the last event and the
counter goes round. -/

theorem run_replicate_push (event : Event) (hid : event.sourceId ≠ 0) (n : Nat) :
    let o := (Observed.fresh 1).run (List.replicate (n + 1) (.push event))
    o.store = { capacity := 1, events := [event], coalesced := UInt32.ofNat n, mutex := true } ∧
      o.accepted = List.replicate (n + 1) event ∧ o.popped = [] := by
  induction n with
  | zero =>
    have hnew : (OfflineEventStore.create 1).push event =
        ({ capacity := 1, events := [event], coalesced := 0, mutex := true }, true) := by
      simp [OfflineEventStore.push, OfflineEventStore.lock, OfflineEventStore.create,
        OfflineEventStore.coalesce, OfflineEventStore.supersededBy]
    simp [Observed.run, Observed.step, Observed.fresh, hnew]
  | succ n ih =>
    obtain ⟨hs, ha, hp⟩ := ih
    have hagain : (OfflineEventStore.mk 1 [event] (UInt32.ofNat n) true).push event =
        ({ capacity := 1, events := [event], coalesced := UInt32.ofNat (n + 1),
           mutex := true }, true) := by
      have hid' : ¬ event.sourceId = OfflineEventStore.SYSTEM_SOURCE_ID := hid
      simp [OfflineEventStore.push, OfflineEventStore.lock, OfflineEventStore.coalesce,
        OfflineEventStore.supersededBy, hid', UInt32.ofNat_add]
    have hrun : (Observed.fresh 1).run (List.replicate (n + 1 + 1) (.push event)) =
        ((Observed.fresh 1).run (List.replicate (n + 1) (.push event))).step (.push event) := by
      rw [List.replicate_succ' (n := n + 1), Observed.run, List.foldl_append]
      rfl
    rw [hrun]
    simp only [Observed.step, hs, hagain, ha, hp, if_true, List.replicate_succ' (n := n + 1)]
    exact ⟨trivial, trivial, trivial⟩

theorem run_replicate_counts (event : Event) (hid : event.sourceId ≠ 0) (n : Nat) :
    let o := (Observed.fresh 1).run (List.replicate (n + 1) (.push event))
    o.accepted.length = n + 1 ∧ o.popped.length = 0 ∧ o.store.size = 1 ∧
      o.store.coalescedCount.toNat = n % 2 ^ 32 := by
  intro o
  obtain ⟨hs, ha, hp⟩ := run_replicate_push event hid n
  refine ⟨?_, ?_, ?_, ?_⟩
  · simp [o, ha]
  · simp [o, hp]
  · simp [o, hs, OfflineEventStore.size, OfflineEventStore.lock]
  · simp [o, hs, OfflineEventStore.coalescedCount, OfflineEventStore.lock]

/-- After 2^32 + 1 pushes of one source the counter reads 0 again, so the
plain equation between pushes, pops, size and counter fails. -/
theorem coalescedCount_wraps :
    ¬ (let o := (Observed.fresh 1).run
        (List.replicate (2 ^ 32 + 1) (.push { sourceId := 4, value := 7 }));
      o.accepted.length = o.popped.length + o.store.size + o.store.coalescedCount.toNat) := by
  intro hc
  obtain ⟨ha, hp, hsize, hcount⟩ :=
    run_replicate_counts { sourceId := 4, value := 7 } (by decide) (2 ^ 32)
  have hc := ha.symm.trans hc
  rw [hp, hsize, hcount] at hc
  omega

end KaizenStation.Firmware
