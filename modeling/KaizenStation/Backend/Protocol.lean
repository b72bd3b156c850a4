/-
KaizenStation.Backend.Protocol — the wire contract of `backend/protocol.py`:
what the middleware accepts as an event or a command, and how it writes a
command.

Python's `json.loads` is outside the source tree. `Loads` is what it makes of
a payload before the two hooks of `json_object` have run: the decoded tree
with repeated names still visible, or `none` where it raises one of the
exceptions that `json_object` turns into "invalid JSON". The hooks are
applied to the finished tree, objects after their members.

A dictionary is the list of its members in insertion order.
-/
import KaizenStation.Foundation.Json

namespace KaizenStation.Backend

open KaizenStation.Foundation

/-- The exceptions the backend raises itself, with their message. -/
inductive PyError where
  | valueError (message : String)
  | runtimeError (message : String)
  deriving DecidableEq

/-- An MQTT payload is `bytes`; the simulation hands over `str`. -/
inductive Payload where
  | str (text : String)
  | bytes (data : ByteArray)

/-- `len(payload)`. -/
def Payload.len : Payload → Nat
  | .str text => text.length
  | .bytes data => data.size

/-- `json.loads` without hooks. -/
abbrev Loads := Payload → Option Json

/-- `raise ValueError(message)` unless the test holds. -/
def require (test : Bool) (message : String) : Except PyError Unit :=
  if test then .ok () else .error (.valueError message)

def BASE_TOPIC : String := "kaizen/stations"

/-! ## Inputs -/

/-- The names in `INPUTS`. -/
inductive InputKind where
  | buttonPressed
  | buttonReleased
  | toggleChanged
  | encoderChanged
  | analogChanged
  | heartbeat
  | faultDetected
  | syncRequested
  deriving DecidableEq, Repr

def InputKind.name : InputKind → String
  | .buttonPressed => "button_pressed"
  | .buttonReleased => "button_released"
  | .toggleChanged => "toggle_changed"
  | .encoderChanged => "encoder_changed"
  | .analogChanged => "analog_changed"
  | .heartbeat => "heartbeat"
  | .faultDetected => "fault_detected"
  | .syncRequested => "sync_requested"

def InputKind.all : List InputKind :=
  [.buttonPressed, .buttonReleased, .toggleChanged, .encoderChanged, .analogChanged, .heartbeat,
   .faultDetected, .syncRequested]

/-- The key of `INPUTS` that a string is. -/
def InputKind.ofName? (name : String) : Option InputKind := all.find? (·.name = name)

/-- `INPUTS`: the source and the bounds of the value. -/
def INPUTS : InputKind → Int × Int × Int
  | .buttonPressed => (1, 1, 1)
  | .buttonReleased => (1, 0, 0)
  | .toggleChanged => (2, 0, 1)
  | .encoderChanged => (3, -(2 ^ 31), 2 ^ 31 - 1)
  | .analogChanged => (4, 0, 100)
  | .heartbeat => (0, 0, 2 ^ 31 - 1)
  | .faultDetected => (0, -(2 ^ 31), 2 ^ 31 - 1)
  | .syncRequested => (0, -(2 ^ 31), 2 ^ 31 - 1)

/-! ## Topics -/

/-- `[A-Za-z0-9_-]`. -/
def isIdChar (c : Char) : Bool := c.isAlphanum || c == '_' || c == '-'

/-- `re.fullmatch(r"[A-Za-z0-9_-]{1,64}", text)`. -/
def isDeviceId (text : String) : Bool :=
  text.toList.all isIdChar && decide (1 ≤ text.length) && decide (text.length ≤ 64)

def deviceId (value : Json) : Except PyError String :=
  let refusal := PyError.valueError
    "device_id must contain 1-64 letters, digits, underscores or hyphens"
  match value with
  | .str text => if isDeviceId text then .ok text else .error refusal
  | _ => .error refusal

def eventTopic (station : String) : Except PyError String := do
  let station ← deviceId (.str station)
  return BASE_TOPIC ++ "/" ++ station ++ "/events"

def commandTopic (station : String) : Except PyError String := do
  let station ← deviceId (.str station)
  return BASE_TOPIC ++ "/" ++ station ++ "/commands"

/-! ## JSON objects -/

/-- `_unique_object`. -/
def uniqueObject (pairs : List (String × Json)) (result : List (String × Json) := []) :
    Except PyError (List (String × Json)) :=
  match pairs with
  | [] => .ok result
  | (key, value) :: rest =>
    if (result.lookup key).isSome then .error (.valueError ("duplicate JSON field: " ++ key))
    else uniqueObject rest (result ++ [(key, value)])

/-- `_bad_constant`. -/
def badConstant (value : String) : Except PyError Unit :=
  .error (.valueError ("invalid JSON constant: " ++ value))

mutual

/-- Both hooks, on every part of a tree. -/
def hooks : Json → Except PyError Unit
  | .constant name => badConstant name
  | .arr items => itemHooks items
  | .obj members => do
    memberHooks members
    discard (uniqueObject members)
  | _ => .ok ()

def itemHooks : List Json → Except PyError Unit
  | [] => .ok ()
  | value :: rest => do
    hooks value
    itemHooks rest

def memberHooks : List (String × Json) → Except PyError Unit
  | [] => .ok ()
  | (_, value) :: rest => do
    hooks value
    memberHooks rest

end

variable (loads : Loads)

/-- `json_object`. The hooks run here on the tree of a text that could be read.
Python calls them while it reads, so for a text that has a constant or a
repeated name and then turns out to be no JSON, the message of its
`ValueError` is the hook's and not "invalid JSON". -/
def jsonObject (payload : Payload) (limit : Nat := 4096) :
    Except PyError (List (String × Json)) := do
  require (decide (payload.len ≤ limit)) "invalid or oversized payload"
  match loads payload with
  | none => .error (.valueError "invalid JSON")
  | some tree =>
    hooks tree
    match tree with
    | .obj data => .ok data
    | _ => .error (.valueError "expected a JSON object")

/-- `set(data) == set(names)`. -/
def hasFields (data : List (String × Json)) (names : List String) : Bool :=
  data.all (fun member => names.contains member.1) &&
    names.all (fun name => (data.lookup name).isSome)

/-- `data[name]`, for a name that `hasFields` has found. -/
def item (data : List (String × Json)) (name : String) : Json := (data.lookup name).getD .null

/-- `integer`. A `bool` or a `float` is none. -/
def integer (value : Json) (name : String) (low high : Int) : Except PyError Int :=
  let refusal := PyError.valueError
    (name ++ " must be an integer in [" ++ toString low ++ ", " ++ toString high ++ "]")
  match value with
  | .int n => if low ≤ n ∧ n ≤ high then .ok n else .error refusal
  | _ => .error refusal

/-! ## Events -/

structure StationEvent where
  deviceId : String
  sequenceId : Int
  eventType : InputKind
  sourceId : Int
  value : Int
  timestampMs : Int
  firmwareVersion : String
  deriving DecidableEq

/-- `StationEvent.__dataclass_fields__`. -/
def StationEvent.fields : List String :=
  ["device_id", "sequence_id", "event_type", "source_id", "value", "timestamp_ms",
   "firmware_version"]

/-- The test of `parse_event` for `event_type`. -/
def inputKind (value : Json) : Except PyError InputKind :=
  let refusal := PyError.valueError "unsupported event_type"
  match value with
  | .str name =>
    match InputKind.ofName? name with
    | some kind => .ok kind
    | none => .error refusal
  | _ => .error refusal

/-- The test of `parse_event` for `firmware_version`. -/
def firmwareVersion (value : Json) : Except PyError String :=
  let refusal := PyError.valueError "invalid firmware_version"
  match value with
  | .str version =>
    if 1 ≤ version.length ∧ version.length ≤ 64 then .ok version else .error refusal
  | _ => .error refusal

/-- `parse_event`. -/
def parseEvent (topic : String) (payload : Payload) : Except PyError StationEvent := do
  let data ← jsonObject loads payload
  require (hasFields data StationEvent.fields) "event fields do not match the firmware schema"
  let station ← deviceId (item data "device_id")
  let expected ← eventTopic station
  require (topic == expected) "event topic does not match device_id"
  let kind ← inputKind (item data "event_type")
  let (source, low, high) := INPUTS kind
  let sequenceId ← integer (item data "sequence_id") "sequence_id" 0 (2 ^ 32 - 1)
  let timestampMs ← integer (item data "timestamp_ms") "timestamp_ms" 0 (2 ^ 53 - 1)
  let sourceId ← integer (item data "source_id") "source_id" source source
  let value ← integer (item data "value") "value" low high
  let version ← firmwareVersion (item data "firmware_version")
  return {
    deviceId := station
    sequenceId := sequenceId
    eventType := kind
    sourceId := sourceId
    value := value
    timestampMs := timestampMs
    firmwareVersion := version }

/-! ## Commands -/

/-- The two values of `command`. -/
inductive Command where
  | setOutput
  | setState
  deriving DecidableEq

def Command.name : Command → String
  | .setOutput => "set_output"
  | .setState => "set_state"

def commandName (value : Json) : Except PyError Command :=
  match value with
  | .str name =>
    if name = Command.setOutput.name then .ok .setOutput
    else if name = Command.setState.name then .ok .setState
    else .error (.valueError "unsupported command")
  | _ => .error (.valueError "unsupported command")

/-- The value of a command: a `bool`, or a number equal to 0 or 1. -/
def commandValue (value : Json) : Except PyError Bool :=
  let refusal := PyError.valueError "command value must be boolean or numeric 0/1"
  match value with
  | .bool on => .ok on
  | .int n => if n = 0 ∨ n = 1 then .ok (n != 0) else .error refusal
  | .float (some x) => if x = 0 ∨ x = 1 then .ok (x != 0) else .error refusal
  | _ => .error refusal

/-- `parse_command`. -/
def parseCommand (payload : Payload) : Except PyError (Command × Bool) := do
  let data ← jsonObject loads payload 512
  require (hasFields data ["command", "value"]) "command requires exactly command and value"
  let command ← commandName (item data "command")
  let value ← commandValue (item data "value")
  return (command, value)

/-- `json.dumps` of a command, with compact separators. -/
def dumpsCommand (command : Command) (on : Bool) : String :=
  "\x7b\"command\":\"" ++ command.name ++ "\",\"value\":" ++ (if on then "true" else "false") ++
    "\x7d"

/-- The topic and the payload of a command. -/
abbrev Publication := String × String

/-- `make_command`. What it writes is parsed once before it is returned. -/
def makeCommand (station : String) (on : Bool) (command : Command := .setOutput) :
    Except PyError Publication := do
  let payload := dumpsCommand command on
  discard (parseCommand loads (.str payload))
  return (← commandTopic station, payload)

end KaizenStation.Backend
