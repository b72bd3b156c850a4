/-
KaizenStation.Firmware.Drivers — the three input drivers of `drivers/` that
the input task polls: `DigitalInput.cpp`, `RotaryEncoder.cpp` and
`AnalogInput.cpp`.

What a driver reads from the outside is an argument of its function: the
level of `gpio_get_level`, the sample of `adc_oneshot_read` (`none` when the
read fails) and the millisecond readings of `esp_timer_get_time()`. `init`
is `initialize()` after the peripheral was configured; a station whose
peripheral fails does not start.
-/
import KaizenStation.Firmware.Event

namespace KaizenStation.Firmware

/-! ## Digital inputs -/

/-- `class DigitalInput`, with the header's member initialisers. -/
structure DigitalInput where
  sourceId : UInt32
  activeEvent : EventType
  inactiveEvent : EventType
  debounceMs : UInt32 := 30
  lastRawState : Bool := false
  stableState : Bool := false
  initialEventPending : Bool := true
  lastChangeTimeMs : UInt64 := 0
  deriving DecidableEq

namespace DigitalInput

/-- `DigitalInput::DigitalInput`. -/
def create (sourceId : UInt32) (activeEvent inactiveEvent : EventType) (debounceMs : UInt32) :
    DigitalInput where
  sourceId := sourceId
  activeEvent := activeEvent
  inactiveEvent := inactiveEvent
  debounceMs := debounceMs

/-- `DigitalInput::readRawState`: wired active-low. -/
def readRawState (level : Nat) : Bool := level == 0

/-- `DigitalInput::initialize`. -/
def init (d : DigitalInput) (level : Nat) (now : UInt64) : DigitalInput :=
  { d with
    lastRawState := readRawState level
    stableState := readRawState level
    lastChangeTimeMs := now }

/-- The event of `DigitalInput::publishStateChange`. -/
def stateEvent (d : DigitalInput) (newState : Bool) (stamp : UInt64) : Event where
  type := if newState then d.activeEvent else d.inactiveEvent
  sourceId := d.sourceId
  value := if newState then 1 else 0
  timestampMs := stamp

/-- `DigitalInput::publishStateChange`; `stamp` is its reading of the
clock. -/
def publishStateChange (d : DigitalInput) (eventQueue : EventQueue) (newState : Bool)
    (stamp : UInt64) : EventQueue × Bool :=
  eventQueue.send (d.stateEvent newState stamp)

/-- A raw transition restarts the debounce timer. -/
def sample (d : DigitalInput) (rawState : Bool) (now : UInt64) : DigitalInput :=
  if rawState != d.lastRawState then
    { d with lastRawState := rawState, lastChangeTimeMs := now }
  else d

/-- The test of `update` for accepting `rawState`. -/
def settled (d : DigitalInput) (rawState : Bool) (now : UInt64) : Bool :=
  (d.initialEventPending || rawState != d.stableState) &&
    decide (now - d.lastChangeTimeMs ≥ d.debounceMs.toUInt64)

/-- `DigitalInput::update`. The new state is only kept if its event was
queued. -/
def update (d : DigitalInput) (eventQueue : EventQueue) (level : Nat) (now stamp : UInt64) :
    DigitalInput × EventQueue :=
  let rawState := readRawState level
  let d := d.sample rawState now
  if d.settled rawState now then
    let (eventQueue, sent) := d.publishStateChange eventQueue rawState stamp
    if sent then
      ({ d with stableState := rawState, initialEventPending := false }, eventQueue)
    else (d, eventQueue)
  else (d, eventQueue)

/-- `DigitalInput::state`. -/
def state (d : DigitalInput) : Bool := d.stableState

end DigitalInput

/-! ## The rotary encoder -/

/-- `class RotaryEncoder`. The two sampled bits are a number below 4. -/
structure RotaryEncoder where
  sourceId : UInt32
  count : Int32 := 0
  previousState : Fin 4 := 0
  deriving DecidableEq

namespace RotaryEncoder

/-- `RotaryEncoder::RotaryEncoder`. -/
def create (sourceId : UInt32) : RotaryEncoder where
  sourceId := sourceId

/-- `RotaryEncoder::readState`: channel A is bit 1, channel B bit 0. -/
def readState (levelA levelB : Nat) : Fin 4 :=
  (if levelA ≠ 0 then 2 else 0) + (if levelB ≠ 0 then 1 else 0)

/-- `transitionTable`, indexed by `previousState << 2 | currentState`. -/
def transitionTable : List Int32 :=
  [0, -1, 1, 0,
   1, 0, 0, -1,
   -1, 0, 0, 1,
   0, 1, -1, 0]

def movement (previousState currentState : Fin 4) : Int32 :=
  transitionTable.getD (previousState.val <<< 2 ||| currentState.val) 0

/-- `RotaryEncoder::initialize`. -/
def init (e : RotaryEncoder) (levelA levelB : Nat) : RotaryEncoder :=
  { e with previousState := readState levelA levelB }

/-- The event of `RotaryEncoder::publishCount`. -/
def countEvent (e : RotaryEncoder) (stamp : UInt64) : Event where
  type := .encoderChanged
  sourceId := e.sourceId
  value := e.count
  timestampMs := stamp

/-- `RotaryEncoder::publishCount`. The answer of the queue is not used. -/
def publishCount (e : RotaryEncoder) (eventQueue : EventQueue) (stamp : UInt64) : EventQueue :=
  (eventQueue.send (e.countEvent stamp)).1

/-- `RotaryEncoder::update`. -/
def update (e : RotaryEncoder) (eventQueue : EventQueue) (levelA levelB : Nat) (stamp : UInt64) :
    RotaryEncoder × EventQueue :=
  let currentState := readState levelA levelB
  if currentState = e.previousState then (e, eventQueue)
  else
    let movement := movement e.previousState currentState
    let e := { e with previousState := currentState }
    if movement = 0 then (e, eventQueue)
    else if movement > 0 ∧ e.count = Int32.maxValue ∨ movement < 0 ∧ e.count = Int32.minValue then
      (e, eventQueue)
    else
      let e := { e with count := e.count + movement }
      (e, e.publishCount eventQueue stamp)

end RotaryEncoder

/-! ## The analog input -/

/-- `class AnalogInput`. -/
structure AnalogInput where
  sourceId : UInt32
  deadbandPercent : UInt8 := 2
  stablePercent : Int32 := 0
  initialized : Bool := false
  initialEventPending : Bool := true
  deriving DecidableEq

namespace AnalogInput

/-- `AnalogInput::AnalogInput`. -/
def create (sourceId : UInt32) (deadbandPercent : UInt8) : AnalogInput where
  sourceId := sourceId
  deadbandPercent := deadbandPercent

/-- `ADC_MAX_VALUE`: a 12-bit converter. -/
def ADC_MAX_VALUE : Int32 := 4095

/-- `std::clamp` to `[low, high]`. -/
def clamp (value low high : Int32) : Int32 :=
  if value < low then low else if high < value then high else value

/-- `AnalogInput::rawToPercent`. -/
def rawToPercent (rawValue : Int32) : Int32 :=
  clamp rawValue 0 ADC_MAX_VALUE * 100 / ADC_MAX_VALUE

/-- `AnalogInput::initialize`, once the baseline was read. -/
def init (a : AnalogInput) (rawValue : Int32) : AnalogInput :=
  { a with stablePercent := rawToPercent rawValue, initialized := true }

/-- The event of `AnalogInput::publishValue`. -/
def valueEvent (a : AnalogInput) (percent : Int32) (stamp : UInt64) : Event where
  type := .analogChanged
  sourceId := a.sourceId
  value := percent
  timestampMs := stamp

/-- `AnalogInput::publishValue`. -/
def publishValue (a : AnalogInput) (eventQueue : EventQueue) (percent : Int32) (stamp : UInt64) :
    EventQueue × Bool :=
  eventQueue.send (a.valueEvent percent stamp)

/-- The early return of `update`: the percentage did not move far enough. -/
def unchanged (a : AnalogInput) (currentPercent : Int32) : Bool :=
  !a.initialEventPending &&
    (currentPercent == a.stablePercent ||
      decide ((currentPercent - a.stablePercent).abs < Int32.ofNat a.deadbandPercent.toNat))

/-- `AnalogInput::update`. -/
def update (a : AnalogInput) (eventQueue : EventQueue) (sample : Option Int32) (stamp : UInt64) :
    AnalogInput × EventQueue :=
  if !a.initialized then (a, eventQueue)
  else
    match sample with
    | none => (a, eventQueue)
    | some rawValue =>
      let currentPercent := rawToPercent rawValue
      if a.unchanged currentPercent then (a, eventQueue)
      else
        let (eventQueue, sent) := a.publishValue eventQueue currentPercent stamp
        if sent then
          ({ a with stablePercent := currentPercent, initialEventPending := false }, eventQueue)
        else (a, eventQueue)

/-- `AnalogInput::valuePercent`. -/
def valuePercent (a : AnalogInput) : Int32 := a.stablePercent

end AnalogInput

end KaizenStation.Firmware
