/-
KaizenStation.Backend.Service — the mock ERP of `backend/odoo_adapter.py` and
the message handler and callback of `backend/service.py` in front of it.

`handle_event` changes the adapter even when it raises afterwards, so it
returns the new adapter beside its result. The `publish` callable is outside
the source tree: `answers k` is its answer to the k-th publication of the
process, and `published` keeps the publications and their answers.
-/
import KaizenStation.Backend.Protocol

namespace KaizenStation.Backend

/-! ## The adapter -/

/-- `class Workstation`, with its defaults. -/
@[ext]
structure Workstation where
  buttonPressed : Bool := false
  taskDone : Bool := false
  targetCount : Int := 0
  progressPercent : Int := 0
  desiredOutput : Bool := false
  freeHeapBytes : Int := 0
  lastDeviceUptimeMs : Int := 0
  faultCode : Int := 0
  receivedAtNs : Int := 0
  deriving DecidableEq

namespace Workstation

/-- What every event sets. -/
def stamped (state : Workstation) (event : StationEvent) (receivedAtNs : Option Int) :
    Workstation :=
  { state with
    lastDeviceUptimeMs := event.timestampMs
    receivedAtNs := receivedAtNs.getD state.receivedAtNs }

/-- The part of `handle_event` that works on one record: the new record, and
the output and the name of the command it returns, if any. -/
def handleEvent (state : Workstation) (event : StationEvent) (receivedAtNs : Option Int) :
    Workstation × Option (Bool × Command) :=
  let state := state.stamped event receivedAtNs
  match event.eventType with
  | .buttonPressed | .buttonReleased => ({ state with buttonPressed := event.value != 0 }, none)
  | .toggleChanged =>
    let state := { state with taskDone := event.value != 0 }
    let state := { state with desiredOutput := state.taskDone }
    (state, some (state.desiredOutput, .setOutput))
  | .encoderChanged => ({ state with targetCount := event.value }, none)
  | .analogChanged => ({ state with progressPercent := event.value }, none)
  | .heartbeat => ({ state with freeHeapBytes := event.value }, none)
  | .faultDetected => ({ state with faultCode := event.value }, none)
  | .syncRequested => (state, some (state.desiredOutput, .setState))

end Workstation

/-- `class MockOdooAdapter`. -/
structure MockOdooAdapter where
  workstations : String → Option Workstation := fun _ => none

namespace MockOdooAdapter

/-- `workstations[station] = state`. -/
def store (adapter : MockOdooAdapter) (station : String) (state : Workstation) :
    MockOdooAdapter where
  workstations := fun name => if name = station then some state else adapter.workstations name

/-- `workstations.setdefault(station, Workstation())`, as a value. -/
def record (adapter : MockOdooAdapter) (station : String) : Workstation :=
  (adapter.workstations station).getD {}

/-- `MockOdooAdapter.handle_event`. -/
def handleEvent (loads : Loads) (adapter : MockOdooAdapter) (event : StationEvent)
    (receivedAtNs : Option Int) : MockOdooAdapter × Except PyError (List Publication) :=
  let (state, command) := (adapter.record event.deviceId).handleEvent event receivedAtNs
  (adapter.store event.deviceId state,
    match command with
    | none => .ok []
    | some (on, name) => do
      let publication ← makeCommand loads event.deviceId on name
      return [publication])

/-- `MockOdooAdapter.set_remote_state`. -/
def setRemoteState (loads : Loads) (adapter : MockOdooAdapter) (station : String) (on : Bool) :
    MockOdooAdapter × Except PyError Publication :=
  match makeCommand loads station on .setState with
  | .error e => (adapter, .error e)
  | .ok publication =>
    match deviceId (.str station) with
    | .error e => (adapter, .error e)
    | .ok name =>
      (adapter.store name { adapter.record name with desiredOutput := on }, .ok publication)

end MockOdooAdapter

/-! ## The middleware -/

structure Middleware where
  adapter : MockOdooAdapter := {}
  published : List (Publication × Bool) := []

/-- The arguments of one call of `handle_message`; `timeNs` is what
`time.time_ns()` answers. -/
structure Message where
  topic : String
  payload : Payload
  receivedAtNs : Option Int
  timeNs : Int

/-- A message as paho hands it to `on_message`; `timeNs` is what
`time.time_ns()` answers there. -/
structure Callback where
  topic : String
  payload : Payload
  retain : Bool
  timeNs : Int

/-- The call of `handle_message` in `on_message`. -/
def Callback.message (callback : Callback) : Message where
  topic := callback.topic
  payload := callback.payload
  receivedAtNs := some callback.timeNs
  timeNs := callback.timeNs

namespace Middleware

variable (loads : Loads) (answers : Nat → Bool)

/-- The loop over the publications: it raises at the first that is not
accepted. -/
def publishAll (m : Middleware) : List Publication → Middleware × Except PyError Unit
  | [] => (m, .ok ())
  | publication :: rest =>
    let accepted := answers m.published.length
    let m := { m with published := m.published ++ [(publication, accepted)] }
    if !accepted then
      (m, .error (.runtimeError "MQTT did not accept the generated command"))
    else m.publishAll rest

/-- `Middleware.handle_message`. -/
def handleMessage (m : Middleware) (message : Message) :
    Middleware × Except PyError (List Publication) :=
  let receivedAtNs := message.receivedAtNs.getD message.timeNs
  match parseEvent loads message.topic message.payload with
  | .error e => (m, .error e)
  | .ok event =>
    let (adapter, result) := m.adapter.handleEvent loads event (some receivedAtNs)
    let m := { m with adapter := adapter }
    match result with
    | .error e => (m, .error e)
    | .ok publications =>
      let (m, sent) := m.publishAll answers publications
      (m, sent.map fun _ => publications)

/-- `on_message`. An exception is logged, whatever it is. -/
def onMessage (m : Middleware) (callback : Callback) : Middleware :=
  if callback.retain then m else (m.handleMessage loads answers callback.message).1

/-- The callbacks one after the other. -/
def onMessages (m : Middleware) (callbacks : List Callback) : Middleware :=
  callbacks.foldl (onMessage loads answers) m

/-- The messages one after the other, whatever each of them raises. -/
def handleAll (m : Middleware) (messages : List Message) : Middleware :=
  messages.foldl (fun m message => (m.handleMessage loads answers message).1) m

end Middleware

end KaizenStation.Backend
