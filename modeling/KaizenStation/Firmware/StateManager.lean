/-
KaizenStation.Firmware.StateManager — the station's local side: the logical
state of `state/StateManager.cpp` and the one status output of
`drivers/LedDriver.cpp` behind `outputs/OutputManager.cpp`.

Neither talks to the network. `Application::processEvent` hands every event
to both.
-/
import KaizenStation.Firmware.Event

namespace KaizenStation.Firmware

/-- `class StateManager`, with the header's member initialisers. -/
structure StateManager where
  buttonState : Bool := false
  toggleState : Bool := false
  encoderValue : Int32 := 0
  analogValue : Int32 := 0
  outputState : Bool := false
  deriving DecidableEq, Repr

/-- `StateManager::handleEvent`. The last branch is the source's list of
connectivity and system events together with its `default`. -/
def StateManager.handleEvent (s : StateManager) (event : Event) : StateManager :=
  match event.type with
  | .buttonPressed => { s with buttonState := true }
  | .buttonReleased => { s with buttonState := false }
  | .toggleChanged => { s with toggleState := event.value != 0 }
  | .encoderChanged => { s with encoderValue := event.value }
  | .analogChanged => { s with analogValue := event.value }
  | .setOutput | .remoteStateUpdate => { s with outputState := event.value != 0 }
  | _ => s

/-! ## The status output -/

/-- `class LedDriver`. `level` is what `gpio_set_level` last wrote to the
pin. -/
structure LedDriver where
  activeHigh : Bool := true
  state : Bool := false
  level : Nat := 0
  deriving DecidableEq, Repr

namespace LedDriver

/-- `LedDriver::writeState`. -/
def writeState (led : LedDriver) : LedDriver :=
  { led with
    level := if led.activeHigh then (if led.state then 1 else 0)
             else (if led.state then 0 else 1) }

/-- `LedDriver::initialize`, once `gpio_config` has answered `ESP_OK`. -/
def init (led : LedDriver) : LedDriver :=
  writeState { led with state := false }

/-- `LedDriver::set`. -/
def set (led : LedDriver) (on : Bool) : LedDriver :=
  writeState { led with state := on }

end LedDriver

/-- `OutputManager::handleEvent` on the LED the manager refers to. -/
def OutputManager.handleEvent (statusLed : LedDriver) (event : Event) : LedDriver :=
  match event.type with
  | .setOutput | .remoteStateUpdate => statusLed.set (event.value != 0)
  | _ => statusLed

end KaizenStation.Firmware
