/-
KaizenStation.Firmware.Polling — a driver that is polled again and again.

A run gives every poll what it reads and the event queue as it finds it, so
the queue may take or refuse each event regardless of the polls before.
Reading 0 is the one of `initialize()`; poll `k` is reading `k`. `offer` is
the event that one `update()` hands to the queue, if it does, and
`update_offer` says that this is all it does to the queue.
-/
import KaizenStation.Foundation.Reporter
import KaizenStation.Firmware.Drivers

namespace KaizenStation.Firmware

open KaizenStation.Foundation

/-- The events of a run that the queue took, up to poll `k`. -/
def taken (queue : Nat → EventQueue) (offers : Nat → Option Event) : Nat → List Event
  | 0 => []
  | k + 1 =>
    taken queue offers k ++
      (offers (k + 1)).toList.filter fun event => ((queue (k + 1)).send event).2

/-- Whether a queue takes an event does not depend on the event. -/
def EventQueue.hasRoom (q : EventQueue) : Bool := decide (q.items.length < q.capacity)

theorem EventQueue.send_room (q : EventQueue) (event : Event) :
    (q.send event).2 = q.hasRoom := by
  unfold EventQueue.hasRoom
  rcases q.send_cases event with ⟨h, hsent, -⟩ | ⟨h, hsent, -⟩ <;> simp [hsent, h]

/-- The queue once it has been offered an event, if there is one. -/
def EventQueue.offered (q : EventQueue) : Option Event → EventQueue
  | some event => (q.send event).1
  | none => q

theorem taken_succ (queue : Nat → EventQueue) (offers : Nat → Option Event) (k : Nat) :
    taken queue offers (k + 1) = taken queue offers k ++
      if (queue (k + 1)).hasRoom then (offers (k + 1)).toList else [] := by
  show taken queue offers k ++ _ = _
  congr 1
  cases offers (k + 1) with
  | none => simp
  | some event => cases h : (queue (k + 1)).hasRoom <;> simp [EventQueue.send_room, h]

theorem mem_taken {queue : Nat → EventQueue} {offers : Nat → Option Event} {k : Nat}
    {event : Event} (h : event ∈ taken queue offers k) : ∃ i ≤ k, event ∈ offers i := by
  induction k with
  | zero => simp [taken] at h
  | succ k ih =>
    rcases List.mem_append.mp h with hbefore | hlast
    · obtain ⟨i, hi, hoffer⟩ := ih hbefore
      exact ⟨i, Nat.le_succ_of_le hi, hoffer⟩
    · exact ⟨k + 1, Nat.le_refl _, Option.mem_toList.mp (List.mem_filter.mp hlast).1⟩

/-- If the polls offer what a reporter offers, each as an event of its poll,
then the events that were taken are those of the reports. -/
theorem taken_reports {α : Type*} {differs : α → α → Prop} [DecidableRel differs]
    {candidate : Nat → Option α} {queue : Nat → EventQueue} {offers : Nat → Option Event}
    (event : Nat → α → Event)
    (h : ∀ k, offers (k + 1) =
      (Reporter.offered differs
        (Reporter.reports differs candidate (fun i => (queue i).hasRoom) k)
        (candidate (k + 1))).map (event (k + 1))) (k : Nat) :
    List.Forall₂ (fun e x => ∃ i, e = event i x) (taken queue offers k)
      (Reporter.reports differs candidate (fun i => (queue i).hasRoom) k) := by
  induction k with
  | zero => exact .nil
  | succ k ih =>
    rw [taken_succ, h k]
    cases hroom : (queue (k + 1)).hasRoom with
    | false => simpa [Reporter.reports, hroom] using ih
    | true =>
      simp only [Reporter.reports, hroom, if_true]
      refine List.rel_append ih ?_
      cases Reporter.offered differs _ (candidate (k + 1)) with
      | none => exact .nil
      | some x => exact .cons ⟨k + 1, rfl⟩ .nil

/-- What the events carry of the reports. -/
theorem map_taken {α β : Type*} {events : List Event} {reports : List α} {event : Nat → α → Event}
    (read : Event → β) (carried : α → β)
    (h : List.Forall₂ (fun e x => ∃ i, e = event i x) events reports)
    (hread : ∀ i x, read (event i x) = carried x) :
    events.map read = reports.map carried := by
  induction h with
  | nil => rfl
  | cons hevent _ ih =>
    obtain ⟨i, rfl⟩ := hevent
    rw [List.map_cons, List.map_cons, ih, hread]

/-! ## Digital inputs -/

structure DigitalPoll where
  level : Nat
  now : UInt64
  /-- The reading of the clock in `publishStateChange`. -/
  stamp : UInt64
  eventQueue : EventQueue

namespace DigitalInput

/-- The event `update` hands to the queue. -/
def offer (d : DigitalInput) (level : Nat) (now stamp : UInt64) : Option Event :=
  let rawState := readRawState level
  if (d.sample rawState now).settled rawState now then some (d.stateEvent rawState stamp) else none

theorem update_offer (d : DigitalInput) (eventQueue : EventQueue) (level : Nat)
    (now stamp : UInt64) :
    (d.update eventQueue level now stamp).2 =
        (match d.offer level now stamp with
          | some event => (eventQueue.send event).1
          | none => eventQueue) ∧
      (d.update eventQueue level now stamp).1 =
        if (d.offer level now stamp).isSome && eventQueue.hasRoom then
          { d.sample (readRawState level) now with
            stableState := readRawState level
            initialEventPending := false }
        else d.sample (readRawState level) now := by
  have hevent : (d.sample (readRawState level) now).stateEvent (readRawState level) stamp =
      d.stateEvent (readRawState level) stamp := by
    unfold sample
    split <;> rfl
  unfold update offer publishStateChange
  simp only [hevent]
  cases (d.sample (readRawState level) now).settled (readRawState level) now with
  | true =>
    simp only [if_true, EventQueue.send_room, Option.isSome_some, Bool.true_and]
    cases eventQueue.hasRoom <;> simp
  | false => simp

theorem update_queue (d : DigitalInput) (eventQueue : EventQueue) (level : Nat)
    (now stamp : UInt64) :
    (d.update eventQueue level now stamp).2 = eventQueue.offered (d.offer level now stamp) := by
  rw [(update_offer d eventQueue level now stamp).1]
  cases d.offer level now stamp <;> rfl

/-- The driver after reading `k`. -/
def after (d : DigitalInput) (polls : Nat → DigitalPoll) : Nat → DigitalInput
  | 0 => d.init (polls 0).level (polls 0).now
  | k + 1 =>
    ((d.after polls k).update (polls (k + 1)).eventQueue (polls (k + 1)).level (polls (k + 1)).now
      (polls (k + 1)).stamp).1

/-- The event that poll `k` hands to the queue. -/
def offers (d : DigitalInput) (polls : Nat → DigitalPoll) : Nat → Option Event
  | 0 => none
  | k + 1 =>
    (d.after polls k).offer (polls (k + 1)).level (polls (k + 1)).now (polls (k + 1)).stamp

/-- The events that were queued up to poll `k`. -/
def queued (d : DigitalInput) (polls : Nat → DigitalPoll) (k : Nat) : List Event :=
  taken (fun i => (polls i).eventQueue) (d.offers polls) k

end DigitalInput

/-! ## The rotary encoder -/

structure EncoderSample where
  levelA : Nat
  levelB : Nat
  /-- The reading of the clock in `publishCount`. -/
  stamp : UInt64
  eventQueue : EventQueue

/-- The two channels as `readState` sees them. -/
def EncoderSample.state (sample : EncoderSample) : Fin 4 :=
  RotaryEncoder.readState sample.levelA sample.levelB

namespace RotaryEncoder

/-- The test of `update` for a count at its limit. -/
def saturated (e : RotaryEncoder) (movement : Int32) : Bool :=
  decide (movement > 0 ∧ e.count = Int32.maxValue ∨ movement < 0 ∧ e.count = Int32.minValue)

/-- The encoder that `update` leaves. -/
def moved (e : RotaryEncoder) (currentState : Fin 4) : RotaryEncoder :=
  if e.saturated (movement e.previousState currentState) then
    { e with previousState := currentState }
  else
    { e with
      previousState := currentState
      count := e.count + movement e.previousState currentState }

/-- The event `update` hands to the queue. -/
def offer (e : RotaryEncoder) (currentState : Fin 4) (stamp : UInt64) : Option Event :=
  if (e.moved currentState).count = e.count then none
  else some ((e.moved currentState).countEvent stamp)

theorem movement_self (state : Fin 4) : movement state state = 0 := by
  revert state
  decide

/-- A count that does not move, or is at its limit, stays. -/
theorem moved_still {e : RotaryEncoder} {currentState : Fin 4}
    (h : movement e.previousState currentState = 0 ∨
      e.saturated (movement e.previousState currentState) = true) :
    e.moved currentState = { e with previousState := currentState } := by
  unfold moved
  split
  · rfl
  · next hroom =>
    rw [h.resolve_right hroom, Int32.add_zero]

theorem moved_count_ne {e : RotaryEncoder} {currentState : Fin 4}
    (hmove : movement e.previousState currentState ≠ 0)
    (hroom : e.saturated (movement e.previousState currentState) = false) :
    e.moved currentState = { e with
        previousState := currentState
        count := e.count + movement e.previousState currentState } ∧
      (e.moved currentState).count ≠ e.count := by
  have hmoved : e.moved currentState = { e with
      previousState := currentState
      count := e.count + movement e.previousState currentState } := by
    simp [moved, hroom]
  exact ⟨hmoved, hmoved ▸ fun h => hmove (Int32.add_eq_left.mp h)⟩

theorem update_offer (e : RotaryEncoder) (eventQueue : EventQueue) (levelA levelB : Nat)
    (stamp : UInt64) :
    (e.update eventQueue levelA levelB stamp).1 = e.moved (readState levelA levelB) ∧
      (e.update eventQueue levelA levelB stamp).2 =
        match e.offer (readState levelA levelB) stamp with
        | some event => (eventQueue.send event).1
        | none => eventQueue := by
  generalize hcurrent : readState levelA levelB = currentState
  unfold update offer publishCount
  simp only [hcurrent]
  by_cases hsame : currentState = e.previousState
  · subst hsame
    rw [if_pos rfl, moved_still (.inl (movement_self e.previousState)), if_pos rfl]
    exact ⟨rfl, rfl⟩
  · rw [if_neg hsame]
    by_cases hmove : movement e.previousState currentState = 0
    · rw [if_pos hmove, moved_still (.inl hmove), if_pos rfl]
      exact ⟨rfl, rfl⟩
    · rw [if_neg hmove]
      cases hsat : e.saturated (movement e.previousState currentState) with
      | true =>
        rw [if_pos (of_decide_eq_true hsat), moved_still (.inr hsat), if_pos rfl]
        exact ⟨rfl, rfl⟩
      | false =>
        obtain ⟨hmoved, hcount⟩ := moved_count_ne hmove hsat
        rw [if_neg (of_decide_eq_false hsat), if_neg hcount, hmoved]
        exact ⟨rfl, rfl⟩

/-- One `update()`. -/
def polled (e : RotaryEncoder) (sample : EncoderSample) : RotaryEncoder × EventQueue :=
  e.update sample.eventQueue sample.levelA sample.levelB sample.stamp

def run (e : RotaryEncoder) (samples : List EncoderSample) : RotaryEncoder :=
  samples.foldl (fun e sample => (e.polled sample).1) e

theorem run_append (e : RotaryEncoder) (samples samples' : List EncoderSample) :
    e.run (samples ++ samples') = (e.run samples).run samples' := List.foldl_append ..

theorem polled_eq (e : RotaryEncoder) (sample : EncoderSample) :
    (e.polled sample).1 = e.moved sample.state :=
  (update_offer e sample.eventQueue sample.levelA sample.levelB sample.stamp).1

end RotaryEncoder

/-! ## The analog input -/

structure AnalogSample where
  /-- `none` when the read fails. -/
  rawValue : Option Int32
  /-- The reading of the clock in `publishValue`. -/
  stamp : UInt64
  eventQueue : EventQueue

namespace AnalogInput

/-- The event `update` hands to the queue. -/
def offer (a : AnalogInput) (rawValue : Option Int32) (stamp : UInt64) : Option Event :=
  if !a.initialized then none
  else
    match rawValue with
    | none => none
    | some rawValue =>
      if a.unchanged (rawToPercent rawValue) then none
      else some (a.valueEvent (rawToPercent rawValue) stamp)

theorem update_offer (a : AnalogInput) (eventQueue : EventQueue) (rawValue : Option Int32)
    (stamp : UInt64) :
    (a.update eventQueue rawValue stamp).2 =
        (match a.offer rawValue stamp with
          | some event => (eventQueue.send event).1
          | none => eventQueue) ∧
      (a.update eventQueue rawValue stamp).1 =
        match a.offer rawValue stamp with
        | some event =>
          if eventQueue.hasRoom then
            { a with stablePercent := event.value, initialEventPending := false }
          else a
        | none => a := by
  unfold update offer publishValue
  cases a.initialized with
  | false => exact ⟨rfl, rfl⟩
  | true =>
    cases rawValue with
    | none => exact ⟨rfl, rfl⟩
    | some rawValue =>
      simp only [Bool.not_true, Bool.false_eq_true, if_false, EventQueue.send_room]
      cases a.unchanged (rawToPercent rawValue) with
      | true => exact ⟨rfl, rfl⟩
      | false => cases eventQueue.hasRoom <;> simp [valueEvent]

theorem update_queue (a : AnalogInput) (eventQueue : EventQueue) (rawValue : Option Int32)
    (stamp : UInt64) :
    (a.update eventQueue rawValue stamp).2 = eventQueue.offered (a.offer rawValue stamp) := by
  rw [(update_offer a eventQueue rawValue stamp).1]
  cases a.offer rawValue stamp <;> rfl

/-- The driver after `initialize()` read `rawValue₀`, and then after poll
`k`. -/
def after (a : AnalogInput) (rawValue₀ : Int32) (samples : Nat → AnalogSample) :
    Nat → AnalogInput
  | 0 => a.init rawValue₀
  | k + 1 =>
    ((a.after rawValue₀ samples k).update (samples (k + 1)).eventQueue (samples (k + 1)).rawValue
      (samples (k + 1)).stamp).1

/-- The event that poll `k` hands to the queue. -/
def offers (a : AnalogInput) (rawValue₀ : Int32) (samples : Nat → AnalogSample) :
    Nat → Option Event
  | 0 => none
  | k + 1 => (a.after rawValue₀ samples k).offer (samples (k + 1)).rawValue (samples (k + 1)).stamp

/-- The events that were queued up to poll `k`. -/
def queued (a : AnalogInput) (rawValue₀ : Int32) (samples : Nat → AnalogSample) (k : Nat) :
    List Event :=
  taken (fun i => (samples i).eventQueue) (a.offers rawValue₀ samples) k

end AnalogInput

end KaizenStation.Firmware
