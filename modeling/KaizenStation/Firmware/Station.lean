/-
KaizenStation.Firmware.Station — the running firmware: the input task of
`app/InputManager.cpp`, the central task of `Application::run`, the event
queue between them and one millisecond clock, wired as in `app_main`.

A run is a sequence of acts in any order. Polling one driver is an act of the
input task; `post` is an event from the Wi-Fi or the MQTT manager; `central`
is the next statement of the central loop, which receives and processes,
then flushes what is pending, then sees to the heartbeat. Time passes between
acts and between the two clock readings of a digital poll, and never goes
back.

`polls` is no state of the firmware: it records, for each poll of the
encoder, whether the poll counted an edge, whether the queue had room, and
the count after the poll.
-/
import KaizenStation.Firmware.Application
import KaizenStation.Firmware.Drivers

namespace KaizenStation.Firmware

/-- The statements of the loop in `Application::run`. -/
inductive LoopPoint where
  | receive
  | flush
  | heartbeat
  deriving DecidableEq

structure EncoderPoll where
  counted : Bool
  room : Bool
  count : Int32
  deriving DecidableEq

structure Station where
  nowMs : UInt64
  eventQueue : EventQueue
  buttonInput : DigitalInput
  toggleInput : DigitalInput
  rotaryEncoder : RotaryEncoder
  analogInput : AnalogInput
  application : Application
  lastHeartbeatMs : UInt64 := 0
  loopPoint : LoopPoint := .receive
  polls : List EncoderPoll := []

/-- One act of one of the tasks; the Wi-Fi and the MQTT task `post`. -/
inductive Act where
  | wait (reading : UInt64)
  | pollButton (level : Nat) (reading : UInt64)
  | pollToggle (level : Nat) (reading : UInt64)
  | pollEncoder (levelA levelB : Nat)
  | pollAnalog (sample : Option Int32)
  | post (event : Event)
  | central (freeHeap : UInt32)

namespace Station

/-! ## Wiring -/

def buttonInput₀ : DigitalInput :=
  DigitalInput.create 1 .buttonPressed .buttonReleased DIGITAL_DEBOUNCE_MS

def toggleInput₀ : DigitalInput :=
  DigitalInput.create 2 .toggleChanged .toggleChanged DIGITAL_DEBOUNCE_MS

def rotaryEncoder₀ : RotaryEncoder := RotaryEncoder.create 3

def analogInput₀ : AnalogInput := AnalogInput.create 4 ANALOG_DEADBAND_PERCENT

/-- The clock at its next reading. -/
def later (nowMs reading : UInt64) : UInt64 := if nowMs ≤ reading then reading else nowMs

/-- What the drivers read in `InputManager::initialize`. -/
structure Readings where
  nowMs : UInt64 := 0
  toggleReading : UInt64 := 0
  buttonLevel : Nat := 1
  toggleLevel : Nat := 1
  levelA : Nat := 1
  levelB : Nat := 1
  rawValue : Int32 := 0

/-- The station when its tasks start; `mutex` is whether the store got one. -/
def boot (r : Readings) (mutex : Bool := true) : Station where
  nowMs := later r.nowMs r.toggleReading
  eventQueue := EventQueue.create EVENT_QUEUE_SIZE
  buttonInput := buttonInput₀.init r.buttonLevel r.nowMs
  toggleInput := toggleInput₀.init r.toggleLevel (later r.nowMs r.toggleReading)
  rotaryEncoder := rotaryEncoder₀.init r.levelA r.levelB
  analogInput := analogInput₀.init r.rawValue
  application := Application.boot (OfflineEventStore.create OFFLINE_EVENT_QUEUE_SIZE mutex)

/-! ## Steps -/

def tick (s : Station) (reading : UInt64) : UInt64 := later s.nowMs reading

def pollButton (s : Station) (level : Nat) (reading : UInt64) : Station :=
  let (buttonInput, eventQueue) :=
    s.buttonInput.update s.eventQueue level s.nowMs (s.tick reading)
  { s with nowMs := s.tick reading, buttonInput := buttonInput, eventQueue := eventQueue }

def pollToggle (s : Station) (level : Nat) (reading : UInt64) : Station :=
  let (toggleInput, eventQueue) :=
    s.toggleInput.update s.eventQueue level s.nowMs (s.tick reading)
  { s with nowMs := s.tick reading, toggleInput := toggleInput, eventQueue := eventQueue }

def pollEncoder (s : Station) (levelA levelB : Nat) : Station :=
  let (rotaryEncoder, eventQueue) := s.rotaryEncoder.update s.eventQueue levelA levelB s.nowMs
  { s with
    rotaryEncoder := rotaryEncoder
    eventQueue := eventQueue
    polls := s.polls ++ [{
      counted := rotaryEncoder.count != s.rotaryEncoder.count
      room := decide (s.eventQueue.items.length < s.eventQueue.capacity)
      count := rotaryEncoder.count }] }

def pollAnalog (s : Station) (sample : Option Int32) : Station :=
  let (analogInput, eventQueue) := s.analogInput.update s.eventQueue sample s.nowMs
  { s with analogInput := analogInput, eventQueue := eventQueue }

variable (p : Platform)

/-- `eventQueue_.receive` and, unless it timed out, `processEvent`. -/
def receive (s : Station) : Station :=
  let (eventQueue, received) := s.eventQueue.receive
  { s with
    eventQueue := eventQueue
    application := match received with
      | some event => s.application.processEvent p event
      | none => s.application
    loopPoint := .flush }

def flush (s : Station) : Station :=
  { s with application := s.application.flushIfPending p, loopPoint := .heartbeat }

/-- The test for a heartbeat being due. -/
def heartbeatDue (s : Station) : Bool :=
  decide (s.nowMs - s.lastHeartbeatMs ≥ HEARTBEAT_INTERVAL_MS)

def heartbeat (s : Station) (freeHeap : UInt32) : Station :=
  if s.heartbeatDue then
    { s with
      lastHeartbeatMs := s.nowMs
      application := s.application.processEvent p (Application.heartbeat s.nowMs freeHeap)
      loopPoint := .receive }
  else { s with loopPoint := .receive }

/-- The next statement of `Application::run`. -/
def central (s : Station) (freeHeap : UInt32) : Station :=
  match s.loopPoint with
  | .receive => s.receive p
  | .flush => s.flush p
  | .heartbeat => s.heartbeat p freeHeap

def step (s : Station) : Act → Station
  | .wait reading => { s with nowMs := s.tick reading }
  | .pollButton level reading => s.pollButton level reading
  | .pollToggle level reading => s.pollToggle level reading
  | .pollEncoder levelA levelB => s.pollEncoder levelA levelB
  | .pollAnalog sample => s.pollAnalog sample
  | .post event => { s with eventQueue := (s.eventQueue.send event).1 }
  | .central freeHeap => s.central p freeHeap

def run (s : Station) (acts : List Act) : Station := acts.foldl (step p) s

end Station

end KaizenStation.Firmware
