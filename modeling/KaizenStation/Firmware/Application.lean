/-
KaizenStation.Firmware.Application — the central task of
`app/Application.cpp`.

The state is what the class owns or refers to, less the event queue: the
state manager, the LED behind the output manager, the offline store and the
sequence counter. The rest of the world answers calls. `Platform.env` gives
the answers of the k-th such call, so a theorem over all environments is one
over every answer of `isConnected()`, `publish()` and cJSON's allocator at
every single call.

`trace` is not state of the class. It records, in the order of the calls and
log lines of the source, what left the task or was lost: the publications
with their answer, and each place where an event is assigned a number,
buffered, erased, dropped or discarded.
-/
import KaizenStation.Firmware.MessageSerializer
import KaizenStation.Firmware.OfflineEventStore
import KaizenStation.Firmware.StateManager

namespace KaizenStation.Firmware

/-- The answers available to one call. -/
structure Answer where
  connected : Bool
  allocated : Bool
  accepted : Bool

/-- What the firmware is built and run against. -/
structure Platform where
  config : DeviceConfig
  cjson : CJson
  env : Nat → Answer

inductive Obs where
  /-- `event.sequenceId = nextSequenceId_++`, with how many calls had been
  answered by then. -/
  | assigned (event : Event) (calls : Nat)
  /-- One call of `mqttManager_.publish` and its answer. -/
  | publish (event : Event) (payload : String) (accepted : Bool)
  /-- "Dropping unserializable buffered event sequence", after the call `call`
  of `serializeEvent`. -/
  | unserializable (event : Event) (call : Nat)
  /-- A push erased `older` because `newer` carries its source. -/
  | superseded (older newer : Event)
  /-- "Buffered event sequence". -/
  | buffered (event : Event)
  /-- "Offline event buffer full - event sequence dropped", with what the
  buffer held. -/
  | bufferFull (event : Event) (held : List Event)
  /-- The early return for a heartbeat that was not sent, with what the buffer
  held and how many calls had been answered. -/
  | heartbeatDiscarded (event : Event) (held : List Event) (calls : Nat)
  deriving DecidableEq

structure Application where
  stateManager : StateManager := {}
  statusLed : LedDriver := {}
  offlineStore : OfflineEventStore
  nextSequenceId : UInt32 := 1
  calls : Nat := 0
  trace : List Obs := []

namespace Application

/-- The application as `app_main` starts it: the LED initialised, the store
fresh. -/
def boot (offlineStore : OfflineEventStore) (statusLed : LedDriver := {}) : Application where
  statusLed := statusLed.init
  offlineStore := offlineStore

def observe (a : Application) (o : Obs) : Application := { a with trace := a.trace ++ [o] }

/-- One more call has been answered. -/
def called (a : Application) : Application := { a with calls := a.calls + 1 }

/-- `offlineStore_.pop` into an event that is not read again. -/
def popHead (a : Application) : Application := { a with offlineStore := a.offlineStore.pop.1 }

variable (p : Platform)

/-- `mqttManager_.isConnected()`. -/
def isConnected (a : Application) : Application × Bool :=
  (a.called, (p.env a.calls).connected)

/-- `MessageSerializer::serializeEvent` with the configured identity. -/
def serialize (a : Application) (event : Event) : Application × String :=
  (a.called, MessageSerializer.serializeEvent p.cjson (p.env a.calls).allocated event
    (some p.config.deviceId) (some p.config.firmwareVersion))

/-- `mqttManager_.publish(eventTopic(), payload, 1, false)`. -/
def publish (a : Application) (event : Event) (payload : String) : Application × Bool :=
  (a.called.observe (.publish event payload (p.env a.calls).accepted), (p.env a.calls).accepted)

/-- `Application::eventTopic`. -/
def eventTopic : String := MQTT_BASE_TOPIC ++ "/" ++ p.config.deviceId.text ++ "/events"

/-- `Application::shouldPublish`. -/
def shouldPublish (event : Event) : Bool :=
  match event.type with
  | .buttonPressed | .buttonReleased | .toggleChanged | .encoderChanged | .analogChanged
  | .faultDetected | .syncRequested | .heartbeat => true
  | _ => false

/-! ## Flushing -/

/-- The body of the loop in `flushOfflineEvents` for the event it peeked; the
flag is whether the loop goes on. -/
def flushOne (a : Application) (event : Event) : Application × Bool :=
  let call := a.calls
  let (a, payload) := a.serialize p event
  if payload.isEmpty then (a.popHead.observe (.unserializable event call), true)
  else
    let (a, accepted) := a.publish p event payload
    if !accepted then (a, false) else (a.popHead, true)

/-- The payload `serialize` gives now. -/
def payloadOf (a : Application) (event : Event) : String := (a.serialize p event).2

/-- The three exits of the loop body: drop an event that has no payload, stop
at one that MQTT refuses, or remove one that MQTT accepted. -/
theorem flushOne_cases (a : Application) (event : Event) :
    ((a.payloadOf p event).isEmpty = true ∧
      a.flushOne p event = (a.called.popHead.observe (.unserializable event a.calls), true)) ∨
    ((a.payloadOf p event).isEmpty = false ∧ (p.env a.called.calls).accepted = false ∧
      a.flushOne p event = (a.called.called.observe
        (.publish event (a.payloadOf p event) false), false)) ∨
    ((a.payloadOf p event).isEmpty = false ∧ (p.env a.called.calls).accepted = true ∧
      a.flushOne p event = ((a.called.called.observe
        (.publish event (a.payloadOf p event) true)).popHead, true)) := by
  cases hp : (a.payloadOf p event).isEmpty with
  | true =>
    refine .inl ⟨rfl, ?_⟩
    simp only [payloadOf, serialize] at hp
    simp [flushOne, serialize, hp]
  | false =>
    simp only [payloadOf, serialize] at hp
    cases ha : (p.env a.called.calls).accepted with
    | false =>
      exact .inr (.inl ⟨rfl, rfl, by simp [flushOne, serialize, publish, payloadOf, hp, ha]⟩)
    | true =>
      exact .inr (.inr ⟨rfl, rfl, by simp [flushOne, serialize, publish, payloadOf, hp, ha]⟩)

theorem peek_eq_some {s : OfflineEventStore} {event : Event} (h : s.peek = some event) :
    s.mutex = true ∧ ∃ rest, s.events = event :: rest := by
  unfold OfflineEventStore.peek OfflineEventStore.lock at h
  cases hm : s.mutex with
  | false => simp [hm] at h
  | true => exact ⟨rfl, List.head?_eq_some_iff.mp (by simpa [hm] using h)⟩

theorem popHead_events {a : Application} {event : Event} (h : a.offlineStore.peek = some event) :
    a.offlineStore.events = event :: a.popHead.offlineStore.events := by
  obtain ⟨hm, rest, hrest⟩ := peek_eq_some h
  simp [popHead, OfflineEventStore.pop, OfflineEventStore.lock, hm, hrest]

/-- An iteration that goes on has removed the head. -/
theorem flushOne_shortens {a : Application} {event : Event}
    (h : a.offlineStore.peek = some event) (hgo : (a.flushOne p event).2 = true) :
    a.offlineStore.events = event :: (a.flushOne p event).1.offlineStore.events := by
  rcases flushOne_cases p a event with ⟨_, he⟩ | ⟨_, _, he⟩ | ⟨_, _, he⟩ <;> rw [he] at hgo ⊢
  · exact popHead_events h
  · cases hgo
  · exact popHead_events h

/-- `while (offlineStore_.peek(event))`. Every iteration that goes on has
removed the head, so the length of the buffer bounds the loop. -/
def flushLoop (a : Application) : Application :=
  match _h : a.offlineStore.peek with
  | none => a
  | some event =>
    if _hgo : (a.flushOne p event).2 = true then flushLoop (a.flushOne p event).1
    else (a.flushOne p event).1
termination_by a.offlineStore.events.length
decreasing_by
  rw [flushOne_shortens p _h _hgo]
  simp

/-- One turn of the loop on a buffer whose head is `event`. -/
theorem flushLoop_some {a : Application} {event : Event} (h : a.offlineStore.peek = some event) :
    a.flushLoop p =
      if (a.flushOne p event).2 then (a.flushOne p event).1.flushLoop p
      else (a.flushOne p event).1 := by
  rw [flushLoop]
  split
  · next h' =>
    rw [h] at h'
    cases h'
  · next event' h' =>
    rw [h] at h'
    cases h'
    split <;> simp_all

/-- `Application::flushOfflineEvents`. -/
def flushOfflineEvents (a : Application) : Application :=
  let (a, connected) := a.isConnected p
  if !connected then a else a.flushLoop p

/-- `if (!offlineStore_.empty()) { flushOfflineEvents(); }`, which both
`publishOrBuffer` and `run` do. -/
def flushIfPending (a : Application) : Application :=
  if !a.offlineStore.empty then a.flushOfflineEvents p else a

/-! ## Publishing -/

/-- The direct attempt of `publishOrBuffer`, with its short-circuits; the flag
is whether it returned from there. -/
def publishDirect (a : Application) (event : Event) : Application × Bool :=
  if !a.offlineStore.empty then (a, false)
  else
    let (a, connected) := a.isConnected p
    if !connected then (a, false)
    else
      let (a, payload) := a.serialize p event
      if payload.isEmpty then (a, false) else a.publish p event payload

/-- What a push of `event` erases, as an observation. -/
def supersededObs (s : OfflineEventStore) (event : Event) : List Obs :=
  if s.lock then (s.supersededBy event).toList.map (fun older => .superseded older event) else []

/-- The end of `publishOrBuffer`, reached when the event was not sent. -/
def bufferEvent (a : Application) (event : Event) : Application :=
  if event.type = .heartbeat then
    a.observe (.heartbeatDiscarded event a.offlineStore.events a.calls)
  else
    let (store, stored) := a.offlineStore.push event
    let erased := supersededObs a.offlineStore event
    { a with
      offlineStore := store
      trace := a.trace ++ erased ++
        [if stored then .buffered event else .bufferFull event a.offlineStore.events] }

/-- `Application::publishOrBuffer`. -/
def publishOrBuffer (a : Application) (event : Event) : Application :=
  let a := a.flushIfPending p
  let (a, sent) := a.publishDirect p event
  if sent then a else a.bufferEvent event

/-! ## Processing -/

/-- `Application::processEvent`. -/
def processEvent (a : Application) (event : Event) : Application :=
  let a := if event.type = .mqttConnected then a.flushOfflineEvents p else a
  let a := { a with
    stateManager := a.stateManager.handleEvent event
    statusLed := OutputManager.handleEvent a.statusLed event }
  if !shouldPublish event then a
  else
    let event := { event with sequenceId := a.nextSequenceId }
    let a := { a with nextSequenceId := a.nextSequenceId + 1 }.observe (.assigned event a.calls)
    a.publishOrBuffer p event

/-- The heartbeat `Application::run` makes. -/
def heartbeat (now : UInt64) (freeHeap : UInt32) : Event where
  type := .heartbeat
  timestampMs := now
  value := freeHeap.toInt32

/-- One turn of the loop in `Application::run`: what `eventQueue_.receive`
gave, and the clock and the free heap as the heartbeat finds them. The second
component is `lastHeartbeatMs`. -/
def iteration (a : Application) (lastHeartbeatMs : UInt64) (received : Option Event)
    (now : UInt64) (freeHeap : UInt32) : Application × UInt64 :=
  let a := match received with
    | some event => a.processEvent p event
    | none => a
  let a := a.flushIfPending p
  if now - lastHeartbeatMs ≥ HEARTBEAT_INTERVAL_MS then
    (a.processEvent p (heartbeat now freeHeap), now)
  else (a, lastHeartbeatMs)

/-- What one turn of the loop meets. -/
structure Turn where
  received : Option Event
  now : UInt64
  freeHeap : UInt32

/-- `Application::run` after these turns, with its `lastHeartbeatMs`. -/
def loop (a : Application) (turns : List Turn) : Application × UInt64 :=
  turns.foldl (fun s turn => s.1.iteration p s.2 turn.received turn.now turn.freeHeap) (a, 0)

/-! ## Runs -/

/-- A call on the application from outside. -/
inductive Call where
  | processEvent (event : Event)
  | flushOfflineEvents

def call (a : Application) : Call → Application
  | .processEvent event => a.processEvent p event
  | .flushOfflineEvents => a.flushOfflineEvents p

def run (a : Application) (calls : List Call) : Application := calls.foldl (call p) a

/-- The event a call assigns a number to, if it does. -/
def Call.published? : Call → Option Event
  | .processEvent event => if shouldPublish event then some event else none
  | .flushOfflineEvents => none

end Application

/-! ## Reading the trace -/

namespace Obs

def assigned? : Obs → Option Event
  | .assigned event _ => some event
  | _ => none

/-- A publication and its answer. -/
def attempt? : Obs → Option (Event × Bool)
  | .publish event _ accepted => some (event, accepted)
  | _ => none

/-- The payload of an accepted publication. -/
def payload? : Obs → Option String
  | .publish _ payload true => some payload
  | _ => none

end Obs

namespace Application

/-- The events numbered so far, in that order. -/
def issued (a : Application) : List Event := a.trace.filterMap Obs.assigned?

/-- The events MQTT was offered, each with the answer. -/
def attempts (a : Application) : List (Event × Bool) := a.trace.filterMap Obs.attempt?

/-- The events MQTT accepted, in the order of acceptance. -/
def accepted (a : Application) : List Event := (a.attempts.filter (·.2)).map (·.1)

/-- The payloads MQTT accepted, in the order of acceptance. -/
def payloads (a : Application) : List String := a.trace.filterMap Obs.payload?

end Application

end KaizenStation.Firmware
