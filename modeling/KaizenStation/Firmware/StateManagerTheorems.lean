/-
KaizenStation.Firmware.StateManagerTheorems — what an event says of each
input.

An event of the wired station is a driver's report or comes from elsewhere.
`button?`, `toggle?`, `encoder?` and `analog?` are the value it gives to each
input, if it gives one; the state manager keeps the last one
(`writes_buttonState` and its siblings), and the events that give a value to
an input are those of its source.
-/
import KaizenStation.Foundation.LastWriter
import KaizenStation.Firmware.StateManager

namespace KaizenStation.Firmware

open KaizenStation.Foundation

/-! ## The events of the wired station -/

/-- The types the input drivers report. -/
def EventType.isReport : EventType → Bool
  | .buttonPressed | .buttonReleased | .toggleChanged | .encoderChanged | .analogChanged => true
  | _ => false

namespace Event

/-- The reports of the drivers as `app_main` wires them. -/
def Reported (event : Event) : Prop :=
  match event.type with
  | .buttonPressed => event.sourceId = 1 ∧ event.value = 1
  | .buttonReleased => event.sourceId = 1 ∧ event.value = 0
  | .toggleChanged => event.sourceId = 2 ∧ (event.value = 0 ∨ event.value = 1)
  | .encoderChanged => event.sourceId = 3
  | .analogChanged => event.sourceId = 4 ∧ 0 ≤ event.value ∧ event.value ≤ 100
  | _ => False

/-- An event that no input driver made. -/
structure Foreign (event : Event) : Prop where
  type : event.type.isReport = false
  source : event.sourceId = 0

/-- The events that reach the central queue, and heartbeats. -/
def Wired (event : Event) : Prop := event.Reported ∨ event.Foreign

/-! ## What an event says of an input -/

def button? (event : Event) : Option Bool :=
  match event.type with
  | .buttonPressed => some true
  | .buttonReleased => some false
  | _ => none

def toggle? (event : Event) : Option Bool :=
  match event.type with
  | .toggleChanged => some (event.value != 0)
  | _ => none

def encoder? (event : Event) : Option Int32 :=
  match event.type with
  | .encoderChanged => some event.value
  | _ => none

def analog? (event : Event) : Option Int32 :=
  match event.type with
  | .analogChanged => some event.value
  | _ => none

/-- The value of a command. -/
def output? (event : Event) : Option Bool :=
  match event.type with
  | .setOutput | .remoteStateUpdate => some (event.value != 0)
  | _ => none

theorem Wired.button? {event : Event} (h : event.Wired) :
    event.button?.isSome = true ↔ event.sourceId = 1 := by
  rcases h with h | ⟨ht, hs⟩
  · unfold Reported at h
    cases ht : event.type <;> simp_all [Event.button?]
  · cases htype : event.type <;> simp_all [Event.button?, EventType.isReport]

theorem Wired.toggle? {event : Event} (h : event.Wired) :
    event.toggle?.isSome = true ↔ event.sourceId = 2 := by
  rcases h with h | ⟨ht, hs⟩
  · unfold Reported at h
    cases ht : event.type <;> simp_all [Event.toggle?]
  · cases htype : event.type <;> simp_all [Event.toggle?, EventType.isReport]

theorem Wired.encoder? {event : Event} (h : event.Wired) :
    event.encoder?.isSome = true ↔ event.sourceId = 3 := by
  rcases h with h | ⟨ht, hs⟩
  · unfold Reported at h
    cases ht : event.type <;> simp_all [Event.encoder?]
  · cases htype : event.type <;> simp_all [Event.encoder?, EventType.isReport]

theorem Wired.analog? {event : Event} (h : event.Wired) :
    event.analog?.isSome = true ↔ event.sourceId = 4 := by
  rcases h with h | ⟨ht, hs⟩
  · unfold Reported at h
    cases ht : event.type <;> simp_all [Event.analog?]
  · cases htype : event.type <;> simp_all [Event.analog?, EventType.isReport]

end Event

/-! ## The state manager keeps the last value -/

namespace StateManager

theorem writes_buttonState : Writes buttonState handleEvent Event.button? := by
  intro s event
  unfold handleEvent Event.button?
  cases event.type <;> rfl

theorem writes_toggleState : Writes toggleState handleEvent Event.toggle? := by
  intro s event
  unfold handleEvent Event.toggle?
  cases event.type <;> rfl

theorem writes_encoderValue : Writes encoderValue handleEvent Event.encoder? := by
  intro s event
  unfold handleEvent Event.encoder?
  cases event.type <;> rfl

theorem writes_analogValue : Writes analogValue handleEvent Event.analog? := by
  intro s event
  unfold handleEvent Event.analog?
  cases event.type <;> rfl

theorem writes_outputState : Writes outputState handleEvent Event.output? := by
  intro s event
  unfold handleEvent Event.output?
  cases event.type <;> rfl

/-- A foreign event changes at most the output. -/
theorem handleEvent_foreign {event : Event} (h : event.type.isReport = false) (m : StateManager) :
    (m.handleEvent event).buttonState = m.buttonState ∧
    (m.handleEvent event).toggleState = m.toggleState ∧
    (m.handleEvent event).encoderValue = m.encoderValue ∧
    (m.handleEvent event).analogValue = m.analogValue := by
  unfold handleEvent
  cases ht : event.type <;> simp_all [EventType.isReport]

end StateManager

/-! ## The LED follows the commands -/

theorem OutputManager.handleEvent_output (led : LedDriver) (event : Event) :
    OutputManager.handleEvent led event =
      match event.output? with
      | some on => led.set on
      | none => led := by
  unfold OutputManager.handleEvent Event.output?
  cases event.type <;> rfl

end KaizenStation.Firmware
