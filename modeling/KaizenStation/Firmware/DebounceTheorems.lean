/-
KaizenStation.Firmware.DebounceTheorems — what a debounced input reports.

The driver keeps one level and one time of its past. They are the level of
the last reading and the time since when the readings have shown it
(`Debounced`), which is all there is to know about windows of readings. A poll
whose level has been held for the debounce interval has a candidate, and the
two flags make a `Reporter` of the driver (`Reporting`): it reports the
candidate if it is news, and tries again when the queue refuses.
-/
import KaizenStation.Foundation.Reporter
import KaizenStation.Foundation.Window
import KaizenStation.Firmware.DriverTheorems
import KaizenStation.Firmware.Polling

namespace KaizenStation.Firmware

open KaizenStation.Foundation

namespace DigitalInput

/-- The value of the event for a level. -/
def levelValue (rawState : Bool) : Int32 := if rawState then 1 else 0

theorem levelValue_inj {v w : Bool} : levelValue v = levelValue w ↔ v = w := by
  revert v w
  decide

section Polls

variable (d : DigitalInput) (polls : Nat → DigitalPoll)

/-- The level of reading `k`. -/
def raw (k : Nat) : Bool := readRawState (polls k).level

/-- The time of reading `k`. -/
def clock (k : Nat) : Nat := (polls k).now.toNat

/-- The driver as it judges reading `k + 1`. -/
def judging (k : Nat) : DigitalInput :=
  (d.after polls k).sample (raw polls (k + 1)) (polls (k + 1)).now

theorem offers_succ (k : Nat) :
    d.offers polls (k + 1) =
      if (d.judging polls k).settled (raw polls (k + 1)) (polls (k + 1)).now then
        some ((d.after polls k).stateEvent (raw polls (k + 1)) (polls (k + 1)).stamp)
      else none := rfl

theorem after_succ (k : Nat) :
    d.after polls (k + 1) =
      if (d.offers polls (k + 1)).isSome && (polls (k + 1)).eventQueue.hasRoom then
        { d.judging polls k with
          stableState := raw polls (k + 1)
          initialEventPending := false }
      else d.judging polls k :=
  (update_offer (d.after polls k) (polls (k + 1)).eventQueue (polls (k + 1)).level
    (polls (k + 1)).now (polls (k + 1)).stamp).2

/-! ## The level and its time -/

/-- `e` has seen the readings up to `k`. -/
structure Debounced (k : Nat) (e : DigitalInput) : Prop where
  wiring : d.SameWiring e
  lastRawState : e.lastRawState = raw polls k
  lastChangeTimeMs : e.lastChangeTimeMs = (polls (since (raw polls) k)).now

variable {d polls}

theorem Debounced.sample {k : Nat} {e : DigitalInput} (h : Debounced d polls k e) :
    Debounced d polls (k + 1) (e.sample (raw polls (k + 1)) (polls (k + 1)).now) := by
  have hwiring := h.wiring.trans (e.sample_wiring (raw polls (k + 1)) (polls (k + 1)).now)
  refine ⟨hwiring, ?_, ?_⟩ <;> unfold DigitalInput.sample <;> rw [h.lastRawState]
  · by_cases hsame : raw polls (k + 1) = raw polls k <;> simp [hsame, h.lastRawState]
  · by_cases hsame : raw polls (k + 1) = raw polls k <;>
      simp [since, hsame, h.lastChangeTimeMs]

variable (d polls) in
theorem after_debounced (k : Nat) : Debounced d polls k (d.after polls k) := by
  induction k with
  | zero => exact ⟨⟨rfl, rfl, rfl, rfl⟩, rfl, rfl⟩
  | succ k ih =>
    obtain ⟨hwiring, hlast, htime⟩ := ih.sample
    rw [after_succ]
    split
    · exact ⟨⟨hwiring.sourceId, hwiring.activeEvent, hwiring.inactiveEvent, hwiring.debounceMs⟩,
        hlast, htime⟩
    · exact ⟨hwiring, hlast, htime⟩

theorem clock_monotone (hclock : ∀ k, (polls k).now ≤ (polls (k + 1)).now) :
    Monotone (clock polls) :=
  monotone_nat_of_le_succ fun k => UInt64.le_iff_toNat_le.mp (hclock k)

/-- Reading `k` has shown its level for the debounce interval. -/
def Held (d : DigitalInput) (polls : Nat → DigitalPoll) (k : Nat) : Prop :=
  clock polls (since (raw polls) k) + d.debounceMs.toNat ≤ clock polls k

instance (k : Nat) : Decidable (Held d polls k) := by
  unfold Held
  infer_instance

/-- The unsigned difference is the time the level has been held. -/
theorem elapsed_iff (hclock : ∀ k, (polls k).now ≤ (polls (k + 1)).now) (k : Nat) :
    (polls (k + 1)).now - (d.judging polls k).lastChangeTimeMs ≥
        (d.judging polls k).debounceMs.toUInt64 ↔ Held d polls (k + 1) := by
  obtain ⟨hwiring, -, htime⟩ := (after_debounced d polls k).sample
  have hback : (polls (since (raw polls) (k + 1))).now ≤ (polls (k + 1)).now :=
    UInt64.le_iff_toNat_le.mpr (clock_monotone hclock (since_steady (k + 1)).1)
  have hback' := UInt64.le_iff_toNat_le.mp hback
  show (polls (k + 1)).now - (d.judging polls k).lastChangeTimeMs ≥ _ ↔ _
  rw [show (d.judging polls k).lastChangeTimeMs = _ from htime,
    show (d.judging polls k).debounceMs = d.debounceMs from hwiring.debounceMs, ge_iff_le,
    UInt64.le_iff_toNat_le, UInt64.toNat_sub_of_le _ _ hback, UInt32.toNat_toUInt64]
  unfold Held clock
  omega

/-! ## The reports -/

variable (d polls) in
/-- The level that poll `k` would report. -/
def candidate (k : Nat) : Option Bool := if Held d polls k then some (raw polls k) else none

variable (d polls) in
/-- The levels reported up to poll `k`. -/
def reported (k : Nat) : List Bool :=
  Reporter.reports (· ≠ ·) (d.candidate polls) (fun i => (polls i).eventQueue.hasRoom) k

variable (d polls) in
theorem reported_succ (k : Nat) :
    d.reported polls (k + 1) =
      if (polls (k + 1)).eventQueue.hasRoom then
        d.reported polls k ++
          (Reporter.offered (· ≠ ·) (d.reported polls k) (d.candidate polls (k + 1))).toList
      else d.reported polls k := rfl

/-- The flags of `e` hold the last of the reports. -/
structure Reporting (reports : List Bool) (e : DigitalInput) : Prop where
  pending : e.initialEventPending = reports.isEmpty
  stable : ∀ v ∈ reports.getLast?, e.stableState = v

/-- The test of `update` asks for news. -/
theorem Reporting.news_iff {reports : List Bool} {e : DigitalInput} (h : Reporting reports e)
    (rawState : Bool) :
    (e.initialEventPending || rawState != e.stableState) = true ↔
      Reporter.News (· ≠ ·) reports rawState := by
  unfold Reporter.News
  rw [h.pending]
  cases hlast : reports.getLast? with
  | none => simp [List.getLast?_eq_none_iff.mp hlast]
  | some v =>
    have hne : reports.isEmpty = false := by
      cases reports with
      | nil => cases hlast
      | cons => rfl
    simp [hne, h.stable v hlast, ne_comm]

theorem Reporting.judged {reports : List Bool} {k : Nat}
    (h : Reporting reports (d.after polls k)) : Reporting reports (d.judging polls k) := by
  obtain ⟨hstable, hpending⟩ :=
    (d.after polls k).sample_reported (raw polls (k + 1)) (polls (k + 1)).now
  exact ⟨hpending.trans h.pending, fun v hv => hstable.trans (h.stable v hv)⟩

/-- A poll offers what the reporter offers. -/
theorem offers_of_reporting (hclock : ∀ k, (polls k).now ≤ (polls (k + 1)).now) {k : Nat}
    {reports : List Bool} (h : Reporting reports (d.after polls k)) :
    d.offers polls (k + 1) =
      (Reporter.offered (· ≠ ·) reports (d.candidate polls (k + 1))).map
        fun v => d.stateEvent v (polls (k + 1)).stamp := by
  rw [offers_succ, stateEvent_wiring (after_debounced d polls k).wiring]
  have hnews := h.judged.news_iff (raw polls (k + 1))
  have helapsed := elapsed_iff (d := d) hclock k
  unfold settled candidate
  by_cases hheld : Held d polls (k + 1)
  · rw [decide_eq_true (helapsed.mpr hheld), Bool.and_true, if_pos hheld]
    by_cases hnew : Reporter.News (· ≠ ·) reports (raw polls (k + 1))
    · rw [if_pos (hnews.mpr hnew), Reporter.offered_of_news hnew]
      rfl
    · rw [if_neg fun hn => hnew (hnews.mp hn), Reporter.offered_of_not_news hnew]
      rfl
  · rw [decide_eq_false fun hn => hheld (helapsed.mp hn), if_neg hheld]
    simp [Reporter.offered]

theorem after_reporting (hclock : ∀ k, (polls k).now ≤ (polls (k + 1)).now)
    (hfresh : d.initialEventPending = true) (k : Nat) :
    Reporting (d.reported polls k) (d.after polls k) := by
  induction k with
  | zero => exact ⟨hfresh, fun v hv => by cases hv⟩
  | succ k ih =>
    rw [after_succ, offers_of_reporting hclock ih, reported_succ]
    cases (polls (k + 1)).eventQueue.hasRoom with
    | false =>
      rw [Bool.and_false]
      exact ih.judged
    | true =>
      rw [Bool.and_true, if_pos rfl]
      cases hoff : Reporter.offered (· ≠ ·) (d.reported polls k) (d.candidate polls (k + 1)) with
      | none =>
        rw [Option.toList_none, List.append_nil]
        exact ih.judged
      | some v =>
        have hv : raw polls (k + 1) = v := by
          have hcandidate := (Reporter.offered_eq_some.mp hoff).1
          unfold candidate at hcandidate
          split at hcandidate
          · exact Option.some.inj hcandidate
          · cases hcandidate
        constructor <;> simp [hv]

/-! ## The queued events -/

variable (d polls) in
/-- The queued events are those of the reports, in their order. -/
theorem queued_reported (hclock : ∀ k, (polls k).now ≤ (polls (k + 1)).now)
    (hfresh : d.initialEventPending = true) (k : Nat) :
    List.Forall₂ (fun event v => ∃ i, event = d.stateEvent v (polls i).stamp) (d.queued polls k)
      (d.reported polls k) :=
  taken_reports (fun i v => d.stateEvent v (polls i).stamp)
    (fun k => offers_of_reporting hclock (after_reporting hclock hfresh k)) k

theorem queued_values (hclock : ∀ k, (polls k).now ≤ (polls (k + 1)).now)
    (hfresh : d.initialEventPending = true) (k : Nat) :
    (d.queued polls k).map Event.value = (d.reported polls k).map levelValue :=
  map_taken Event.value levelValue (queued_reported d polls hclock hfresh k) fun _ _ => rfl

variable (d polls) in
theorem queued_stateEvent (hclock : ∀ k, (polls k).now ≤ (polls (k + 1)).now)
    (hfresh : d.initialEventPending = true) (k : Nat) :
    ∀ event ∈ d.queued polls k, ∃ v stamp, event = d.stateEvent v stamp := by
  intro event hmem
  obtain ⟨i, -, hoffer⟩ := mem_taken hmem
  cases i with
  | zero => cases hoffer
  | succ i =>
    rw [offers_of_reporting hclock (after_reporting hclock hfresh i)] at hoffer
    obtain ⟨v, -, hevent⟩ := Option.map_eq_some_iff.mp hoffer
    exact ⟨v, _, hevent.symm⟩

/-- The last queued event is the last report. -/
theorem last_queued (hclock : ∀ k, (polls k).now ≤ (polls (k + 1)).now)
    (hfresh : d.initialEventPending = true) (k : Nat) :
    (d.queued polls k).getLast?.map Event.value =
      (d.reported polls k).getLast?.map levelValue := by
  rw [← List.getLast?_map, ← List.getLast?_map, queued_values hclock hfresh]

theorem news_iff_queued (hclock : ∀ k, (polls k).now ≤ (polls (k + 1)).now)
    (hfresh : d.initialEventPending = true) (k : Nat) (v : Bool) :
    Reporter.News (· ≠ ·) (d.reported polls k) v ↔
      ∀ last ∈ (d.queued polls k).getLast?, last.value ≠ levelValue v := by
  have hlast := last_queued hclock hfresh k
  unfold Reporter.News
  cases hq : (d.queued polls k).getLast? with
  | none =>
    cases hr : (d.reported polls k).getLast? with
    | none => simp
    | some w => simp [hq, hr] at hlast
  | some event =>
    cases hr : (d.reported polls k).getLast? with
    | none => simp [hq, hr] at hlast
    | some w =>
      have hvalue : event.value = levelValue w := by simpa [hq, hr] using hlast
      simp [hvalue, levelValue_inj]

/-- The last queued event is the accepted state. -/
theorem last_queued_state (hclock : ∀ k, (polls k).now ≤ (polls (k + 1)).now)
    (hfresh : d.initialEventPending = true) (k : Nat) :
    ∀ last ∈ (d.queued polls k).getLast?, last.value = levelValue (d.after polls k).state := by
  intro last hin
  have hlast := last_queued hclock hfresh k
  rw [Option.mem_def.mp hin] at hlast
  obtain ⟨v, hv, hvalue⟩ := Option.map_eq_some_iff.mp hlast.symm
  rw [← hvalue, ← (after_reporting hclock hfresh k).stable v hv]
  rfl

theorem offers_eq_some (hclock : ∀ k, (polls k).now ≤ (polls (k + 1)).now)
    (hfresh : d.initialEventPending = true) {k : Nat} {v : Bool} {stamp : UInt64}
    (h : d.offers polls (k + 1) = some (d.stateEvent v stamp)) :
    Reporter.offered (· ≠ ·) (d.reported polls k) (d.candidate polls (k + 1)) = some v := by
  rw [offers_of_reporting hclock (after_reporting hclock hfresh k)] at h
  obtain ⟨w, hw, hevent⟩ := Option.map_eq_some_iff.mp h
  have hvalue : levelValue w = levelValue v := congrArg Event.value hevent
  rw [hw, levelValue_inj.mp hvalue]

/-- What a poll offers, it has seen for the debounce interval. -/
theorem offers_held (hclock : ∀ k, (polls k).now ≤ (polls (k + 1)).now) {k : Nat} {event : Event}
    (h : d.offers polls k = some event) :
    event.value = levelValue (raw polls k) ∧ Held d polls k := by
  cases k with
  | zero => cases h
  | succ k =>
    rw [offers_succ] at h
    split at h
    · next hsettled =>
      unfold settled at hsettled
      have helapsed := of_decide_eq_true (Bool.and_eq_true_iff.mp hsettled).2
      obtain rfl := Option.some.inj h
      exact ⟨rfl, (elapsed_iff hclock k).mp helapsed⟩
    · cases h

end Polls

/-! ## Soundness -/

/-- What a poll reports is the level it read, and the readings have shown
that level since an earlier one that lies the debounce interval back; without
an interval that one may be the poll itself. A level that never stays so long
is never reported. What a poll reports is all that it offers the queue. -/
theorem debounce_sound (d : DigitalInput) (polls : Nat → DigitalPoll)
    (hclock : ∀ k, (polls k).now ≤ (polls (k + 1)).now) :
    (∀ k event, d.offers polls k = some event →
      event.value = levelValue (raw polls k) ∧
      ∃ j, (j < k ∨ j = k ∧ d.debounceMs = 0) ∧
        (∀ i, j ≤ i → i ≤ k → raw polls i = raw polls k) ∧
        d.debounceMs.toNat ≤ clock polls k - clock polls j) ∧
    (∀ v, (∀ j k, j ≤ k → (∀ i, j ≤ i → i ≤ k → raw polls i = v) →
        clock polls k - clock polls j < d.debounceMs.toNat) →
      ∀ k event, d.offers polls k = some event → event.value ≠ levelValue v) ∧
    ∀ k, ((d.after polls k).update (polls (k + 1)).eventQueue (polls (k + 1)).level
      (polls (k + 1)).now (polls (k + 1)).stamp).2 =
        (polls (k + 1)).eventQueue.offered (d.offers polls (k + 1)) := by
  have hwindow : ∀ k event, d.offers polls k = some event →
      event.value = levelValue (raw polls k) ∧
      Steady (raw polls) (since (raw polls) k) k ∧
      d.debounceMs.toNat ≤ clock polls k - clock polls (since (raw polls) k) := by
    intro k event h
    obtain ⟨hvalue, hheld⟩ := offers_held hclock h
    unfold Held at hheld
    exact ⟨hvalue, since_steady k, by omega⟩
  refine ⟨?_, ?_, fun k => update_queue _ _ _ _ _⟩
  · intro k event h
    obtain ⟨hvalue, hsteady, hwide⟩ := hwindow k event h
    refine ⟨hvalue, since (raw polls) k, ?_, hsteady.2, hwide⟩
    rcases Nat.lt_or_eq_of_le hsteady.1 with hearlier | hnow
    · exact .inl hearlier
    · rw [hnow, Nat.sub_self] at hwide
      exact .inr ⟨hnow, UInt32.toNat_inj.mp (Nat.le_zero.mp hwide)⟩
  · intro v hbrief k event h hv
    obtain ⟨hvalue, hsteady, hwide⟩ := hwindow k event h
    have hlevel : raw polls k = v := levelValue_inj.mp (hvalue.symm.trans hv)
    have hshort := hbrief (since (raw polls) k) k hsteady.1
      fun i hi hik => (hsteady.2 i hi hik).trans hlevel
    omega

/-- A button that is up at first, and down from the reading at 10 ms on. -/
def pressed (k : Nat) : DigitalPoll where
  level := if k = 0 then 1 else 0
  now := UInt64.ofNat (if k = 0 then 0 else if k = 1 then 10 else 40)
  stamp := 40
  eventQueue := EventQueue.create 32

theorem pressed_clock (k : Nat) : (pressed k).now ≤ (pressed (k + 1)).now := by
  match k with
  | 0 => decide
  | 1 => decide
  | k + 2 => simp [pressed]

theorem debounce_sound_pressed :
    let d := create 1 .buttonPressed .buttonReleased 30
    ∃ j, (j < 2 ∨ j = 2 ∧ d.debounceMs = 0) ∧
      (∀ i, j ≤ i → i ≤ 2 → raw pressed i = raw pressed 2) ∧
      d.debounceMs.toNat ≤ clock pressed 2 - clock pressed j :=
  ((debounce_sound (create 1 .buttonPressed .buttonReleased 30) pressed pressed_clock).1 2
    { type := .buttonPressed, sourceId := 1, value := 1, timestampMs := 40 } (by decide)).2

/-- A button that is up at the first reading and down at all others. -/
def pressedAtOnce (k : Nat) : DigitalPoll where
  level := if k = 0 then 1 else 0
  now := 5 * UInt64.ofNat (min k 1)
  stamp := 5
  eventQueue := EventQueue.create 32

/-- With an interval of 0 the first poll reports the press it has just read,
and no earlier reading shows it. -/
theorem debounce_without_interval :
    ¬ ∀ (d : DigitalInput) (polls : Nat → DigitalPoll),
      (∀ k, (polls k).now ≤ (polls (k + 1)).now) →
      ∀ k event, d.offers polls k = some event →
        event.value = levelValue (raw polls k) ∧
        ∃ j, j < k ∧ (∀ i, j ≤ i → i ≤ k → raw polls i = raw polls k) ∧
          d.debounceMs.toNat ≤ clock polls k - clock polls j := by
  intro h
  have hclock : ∀ k, (pressedAtOnce k).now ≤ (pressedAtOnce (k + 1)).now := by
    intro k
    cases k with
    | zero => decide
    | succ k => simp [pressedAtOnce]
  obtain ⟨-, j, hj, hlevel, -⟩ :=
    h (create 1 .buttonPressed .buttonReleased 0) pressedAtOnce hclock 1 _ rfl
  obtain rfl : j = 0 := Nat.lt_one_iff.mp hj
  have hpressed := hlevel 0 (Nat.le_refl 0) (Nat.zero_le 1)
  exact absurd hpressed (by decide)

/-! ## Completeness -/

/-- A window of the debounce interval makes a candidate of its level. -/
theorem candidate_of_window {d : DigitalInput} {polls : Nat → DigitalPoll}
    (hclock : ∀ k, (polls k).now ≤ (polls (k + 1)).now) {j k : Nat} {v : Bool} (hjk : j ≤ k)
    (hlevel : ∀ i, j ≤ i → i ≤ k → raw polls i = v)
    (hwide : d.debounceMs.toNat ≤ clock polls k - clock polls j) :
    d.candidate polls k = some v := by
  have hk : raw polls k = v := hlevel k hjk (Nat.le_refl k)
  have hsteady : Steady (raw polls) j k :=
    ⟨hjk, fun i hi hik => (hlevel i hi hik).trans hk.symm⟩
  have hback := clock_monotone hclock hjk
  have hheld : Held d polls k :=
    (held_iff (clock_monotone hclock) d.debounceMs.toNat k).mpr ⟨j, hsteady, by omega⟩
  simp [candidate, hheld, hk]

/-- A candidate stays one while its level does. -/
theorem candidate_again {d : DigitalInput} {polls : Nat → DigitalPoll}
    (hclock : ∀ k, (polls k).now ≤ (polls (k + 1)).now) {k : Nat} {v : Bool}
    (h : d.candidate polls k = some v) (hlevel : raw polls (k + 1) = v) :
    d.candidate polls (k + 1) = some v := by
  unfold candidate at h
  split at h
  · next hheld =>
    have hk : raw polls k = v := Option.some.inj h
    have hlater : clock polls k ≤ clock polls (k + 1) := clock_monotone hclock (Nat.le_succ k)
    have hheld' : Held d polls (k + 1) := by
      unfold Held at hheld ⊢
      rw [since, if_pos (hlevel.trans hk.symm)]
      omega
    simp [candidate, hheld', hlevel]
  · cases h

/-- A level that is refused and stays is offered at every poll. -/
theorem offers_until_taken {d : DigitalInput} {polls : Nat → DigitalPoll}
    (hclock : ∀ k, (polls k).now ≤ (polls (k + 1)).now) (hfresh : d.initialEventPending = true)
    {k n : Nat} {v : Bool} (hoffered : d.offers polls k = some (d.stateEvent v (polls k).stamp))
    (hrefused : ∀ i, k ≤ i → i < k + n → ∀ event ∈ d.offers polls i,
      ((polls i).eventQueue.send event).2 = false)
    (hlevel : ∀ i, k ≤ i → i ≤ k + n → raw polls i = v) :
    d.offers polls (k + n) = some (d.stateEvent v (polls (k + n)).stamp) := by
  induction n with
  | zero => exact hoffered
  | succ n ih =>
    have hlast := ih (fun i hi hin => hrefused i hi (by omega))
      fun i hi hin => hlevel i hi (by omega)
    have hfull := hrefused (k + n) (by omega) (by omega) _ hlast
    have hstays := hlevel (k + n + 1) (by omega) (by omega)
    rw [← Nat.add_assoc]
    generalize k + n = m at hlast hfull hstays ⊢
    cases m with
    | zero => cases hlast
    | succ m =>
      have hoff := offers_eq_some hclock hfresh hlast
      rw [EventQueue.send_room] at hfull
      have hcandidate := candidate_again hclock (Reporter.offered_eq_some.mp hoff).1 hstays
      have hagain := Reporter.offered_again hoff hfull hcandidate
      rw [offers_of_reporting hclock (after_reporting hclock hfresh (m + 1))]
      exact congrArg (Option.map _) hagain

/-- The events of a new driver's queue are those of levels in turn, the last
one the accepted state. A level that has been held for the interval and is
not the last one queued is offered, and as long as it is refused and stays it
is offered at every poll; once it is queued it is not offered while it is the
last one. A poll leaves the queue as it is, but for the event that it offers. -/
theorem debounce_complete (sourceId : UInt32) (activeEvent inactiveEvent : EventType)
    (debounceMs : UInt32) (polls : Nat → DigitalPoll)
    (hclock : ∀ k, (polls k).now ≤ (polls (k + 1)).now) :
    let d := create sourceId activeEvent inactiveEvent debounceMs
    (∀ k, ((d.queued polls k).map Event.value).IsChain (· ≠ ·) ∧
      (∀ event ∈ d.queued polls k, ∃ v stamp, event = d.stateEvent v stamp) ∧
      ∀ last ∈ (d.queued polls k).getLast?,
        last.value = levelValue (d.after polls k).state) ∧
    (∀ j k v, j ≤ k + 1 → (∀ i, j ≤ i → i ≤ k + 1 → raw polls i = v) →
      debounceMs.toNat ≤ clock polls (k + 1) - clock polls j →
      (∀ last ∈ (d.queued polls k).getLast?, last.value ≠ levelValue v) →
        d.offers polls (k + 1) = some (d.stateEvent v (polls (k + 1)).stamp)) ∧
    (∀ k n v, d.offers polls k = some (d.stateEvent v (polls k).stamp) →
      (∀ i, k ≤ i → i < k + n → ∀ event ∈ d.offers polls i,
        ((polls i).eventQueue.send event).2 = false) →
      (∀ i, k ≤ i → i ≤ k + n → raw polls i = v) →
        d.offers polls (k + n) = some (d.stateEvent v (polls (k + n)).stamp)) ∧
    (∀ k v, (∃ last ∈ (d.queued polls k).getLast?, last.value = levelValue v) →
      ∀ event ∈ d.offers polls (k + 1), event.value ≠ levelValue v) ∧
    ∀ k, ((d.after polls k).update (polls (k + 1)).eventQueue (polls (k + 1)).level
      (polls (k + 1)).now (polls (k + 1)).stamp).2 =
        (polls (k + 1)).eventQueue.offered (d.offers polls (k + 1)) := by
  intro d
  have hoffers := fun k => offers_of_reporting hclock (after_reporting (d := d) hclock rfl k)
  refine ⟨fun k => ⟨?_, queued_stateEvent d polls hclock rfl k, last_queued_state hclock rfl k⟩,
    ?_, fun k n v hoffered hrefused hlevel => ?_, ?_, fun k => update_queue _ _ _ _ _⟩
  · rw [queued_values hclock rfl, List.isChain_map]
    exact (Reporter.reports_chain k).imp fun _ _ hne h => hne (levelValue_inj.mp h)
  · intro j k v hjk hlevel hwide hnews
    rw [hoffers k, candidate_of_window hclock hjk hlevel hwide,
      Reporter.offered_of_news ((news_iff_queued hclock rfl k v).mpr hnews)]
    rfl
  · exact offers_until_taken hclock rfl hoffered hrefused hlevel
  · rintro k v ⟨last, hlast, hvalue⟩ event hevent heq
    rw [Option.mem_def, hoffers k] at hevent
    obtain ⟨w, hw, rfl⟩ := Option.map_eq_some_iff.mp hevent
    have hnews := (news_iff_queued hclock rfl k w).mp (Reporter.offered_eq_some.mp hw).2
    exact hnews last hlast (hvalue.trans heq.symm)

theorem debounce_complete_pressed :
    (create 1 .buttonPressed .buttonReleased 30).offers pressed 2 =
      some { type := .buttonPressed, sourceId := 1, value := 1, timestampMs := 40 } :=
  (debounce_complete 1 .buttonPressed .buttonReleased 30 pressed pressed_clock).2.1 1 1 true
    (by decide) (by decide) (by decide) (by decide)

end DigitalInput

end KaizenStation.Firmware
