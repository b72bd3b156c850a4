/-
KaizenStation.Firmware.Event — the event object of `events/Event.hpp` and
the bounded FreeRTOS queue of `events/EventQueue.cpp` that carries it
between tasks.

Every integer field keeps the width the header gives it. `EventQueue` is
the queue after `isValid()`: `app_main` stops before any task starts when
`xQueueCreate` returns no handle, so the handle itself is not modelled.
The bound is a field, so a queue holding more than its capacity cannot be
built.
-/
import Mathlib.Algebra.Order.Ring.Int

namespace KaizenStation.Firmware

/-- `enum class EventType : std::uint8_t`, in the header's order. -/
inductive EventType where
  | none
  | buttonPressed
  | buttonReleased
  | toggleChanged
  | encoderChanged
  | analogChanged
  | remoteStateUpdate
  | setOutput
  | wifiConnected
  | wifiDisconnected
  | mqttConnected
  | mqttDisconnected
  | syncRequested
  | faultDetected
  | heartbeat
  deriving DecidableEq, Repr

/-- `struct Event`. `sourceId` is 1 = button, 2 = toggle, 3 = encoder,
4 = analog, 0 = system or command. -/
structure Event where
  type : EventType := .none
  sourceId : UInt32 := 0
  value : Int32 := 0
  timestampMs : UInt64 := 0
  sequenceId : UInt32 := 0
  deriving DecidableEq, Repr

/-- The event that the Wi-Fi and the MQTT manager make of their state in
`publishConnectionEvent`. -/
def connectionEvent (type : EventType) (connected : Bool) (now : UInt64) : Event where
  type := type
  sourceId := 0
  value := if connected then 1 else 0
  timestampMs := now
  sequenceId := 0

/-! ## The central queue -/

structure EventQueue where
  capacity : Nat
  items : List Event
  bounded : items.length ≤ capacity

namespace EventQueue

/-- `EventQueue::EventQueue`. -/
def create (capacity : Nat) : EventQueue where
  capacity := capacity
  items := []
  bounded := Nat.zero_le _

/-- `EventQueue::send` with its default timeout of 0: a full queue refuses
the event at once. -/
def send (q : EventQueue) (event : Event) : EventQueue × Bool :=
  if h : q.items.length < q.capacity then
    ({ capacity := q.capacity, items := q.items ++ [event],
       bounded := by rw [List.length_append]; exact h }, true)
  else (q, false)

/-- `EventQueue::receive`. `none` is the timeout. -/
def receive (q : EventQueue) : EventQueue × Option Event :=
  match h : q.items with
  | [] => (q, none)
  | event :: rest =>
    ({ capacity := q.capacity, items := rest,
       bounded := by have := q.bounded; simp [h] at this; omega }, some event)

theorem send_accepted {q : EventQueue} {event : Event} (h : q.items.length < q.capacity) :
    (q.send event).2 = true ∧ (q.send event).1.items = q.items ++ [event] := by
  simp [send, h]

theorem send_refused {q : EventQueue} {event : Event} (h : ¬ q.items.length < q.capacity) :
    q.send event = (q, false) := by
  simp [send, h]

/-- A send either appends the event and answers true, or changes nothing
and answers false. -/
theorem send_cases (q : EventQueue) (event : Event) :
    (q.items.length < q.capacity ∧ (q.send event).2 = true ∧
      (q.send event).1.items = q.items ++ [event]) ∨
    (¬ q.items.length < q.capacity ∧ (q.send event).2 = false ∧ (q.send event).1 = q) := by
  by_cases h : q.items.length < q.capacity
  · exact .inl ⟨h, send_accepted h⟩
  · refine .inr ⟨h, ?_, ?_⟩ <;> rw [send_refused h]

theorem send_items (q : EventQueue) (event : Event) :
    (q.send event).1.items =
      q.items ++ if q.items.length < q.capacity then [event] else [] := by
  rcases q.send_cases event with ⟨hroom, -, hitems⟩ | ⟨hfull, -, hsame⟩
  · rw [hitems, if_pos hroom]
  · rw [hsame, if_neg hfull, List.append_nil]

theorem receive_nil {q : EventQueue} (h : q.items = []) : q.receive = (q, none) := by
  unfold receive; split
  · rfl
  · rename_i e rest h'; rw [h] at h'; cases h'

theorem receive_cons {q : EventQueue} {event : Event} {rest : List Event}
    (h : q.items = event :: rest) :
    q.receive.2 = some event ∧ q.receive.1.items = rest ∧
      q.receive.1.capacity = q.capacity := by
  unfold receive; split
  · rename_i h'; rw [h] at h'; cases h'
  · rename_i e r h'
    rw [h] at h'
    cases h'
    exact ⟨rfl, rfl, rfl⟩

theorem send_capacity (q : EventQueue) (event : Event) :
    (q.send event).1.capacity = q.capacity := by
  unfold send
  split <;> rfl

theorem receive_capacity (q : EventQueue) : q.receive.1.capacity = q.capacity := by
  unfold receive
  split <;> rfl

end EventQueue

end KaizenStation.Firmware
