/-
KaizenStation.Firmware.MessageSerializer — `serializeEvent` of
`network/MessageSerializer.cpp` and the constants of
`config/DeviceConfig.hpp` it is called with.

cJSON is a managed component outside the source tree, so what it prints for
an object is the field of a parameter `CJson`. Its numbers are doubles; the
serializer only stores integral ones, and `CJsonItem.number` holds the
integral value of the double. A `std::uint32_t` and a `std::int32_t` are
doubles without loss; a `std::uint64_t` is rounded (`doubleOfUInt64`).
-/
import KaizenStation.Firmware.Event

namespace KaizenStation.Firmware

/-- The text behind a `const char*`: no character of it is NUL. -/
structure CString where
  text : String
  noNul : text.toList.all (fun c => c.toNat ≠ 0) = true
  deriving DecidableEq

namespace CString

def ofText (text : String) (h : text.toList.all (fun c => c.toNat ≠ 0) = true := by decide) :
    CString := ⟨text, h⟩

end CString

/-! ## Configuration -/

/-- `config::MQTT_BASE_TOPIC`. -/
def MQTT_BASE_TOPIC : String := "kaizen/stations"

/-- `config::OFFLINE_EVENT_QUEUE_SIZE`. -/
def OFFLINE_EVENT_QUEUE_SIZE : Nat := 64

/-- `config::EVENT_QUEUE_SIZE`. -/
def EVENT_QUEUE_SIZE : Nat := 32

/-- `config::HEARTBEAT_INTERVAL_MS`. -/
def HEARTBEAT_INTERVAL_MS : UInt64 := 30000

/-- `config::DIGITAL_DEBOUNCE_MS`. -/
def DIGITAL_DEBOUNCE_MS : UInt32 := 30

/-- `config::ANALOG_DEADBAND_PERCENT`. -/
def ANALOG_DEADBAND_PERCENT : UInt8 := 2

/-- The two configured texts. `STATION_DEVICE_ID` may be set to anything at
compile time; `defaultConfig` has the values in the header. -/
structure DeviceConfig where
  deviceId : CString
  firmwareVersion : CString
  deriving DecidableEq

def defaultConfig : DeviceConfig where
  deviceId := CString.ofText "station_01"
  firmwareVersion := CString.ofText "0.1.0"

/-! ## Serialization -/

/-- The value of a member added to a cJSON object. -/
inductive CJsonItem where
  | number (valuedouble : Int)
  | string (valuestring : CString)

/-- The rendering `cJSON_PrintUnformatted` gives an object whose members were
added in the given order. -/
structure CJson where
  printUnformatted : List (CString × CJsonItem) → String

/-- `static_cast<double>` of a `std::uint64_t`: 53 significant bits, rounding
half to even. -/
def doubleOfUInt64 (n : UInt64) : Int :=
  if n.toNat < 2 ^ 53 then n.toNat
  else
    let unit := 2 ^ (n.toNat.log2 - 52)
    let quotient := n.toNat / unit
    let remainder := n.toNat % unit
    let up := decide (2 * remainder > unit) ||
      (decide (2 * remainder = unit) && decide (quotient % 2 = 1))
    ((if up then quotient + 1 else quotient) * unit : Nat)

namespace MessageSerializer

/-- `MessageSerializer::eventTypeToString`. -/
def eventTypeToString : EventType → CString
  | .buttonPressed => CString.ofText "button_pressed"
  | .buttonReleased => CString.ofText "button_released"
  | .toggleChanged => CString.ofText "toggle_changed"
  | .encoderChanged => CString.ofText "encoder_changed"
  | .analogChanged => CString.ofText "analog_changed"
  | .remoteStateUpdate => CString.ofText "remote_state_update"
  | .setOutput => CString.ofText "set_output"
  | .wifiConnected => CString.ofText "wifi_connected"
  | .wifiDisconnected => CString.ofText "wifi_disconnected"
  | .mqttConnected => CString.ofText "mqtt_connected"
  | .mqttDisconnected => CString.ofText "mqtt_disconnected"
  | .syncRequested => CString.ofText "sync_requested"
  | .heartbeat => CString.ofText "heartbeat"
  | .faultDetected => CString.ofText "fault_detected"
  | .none => CString.ofText "none"

/-- The seven members in the order `serializeEvent` adds them. A null
pointer argument is `none`. -/
def eventMembers (event : Event) (deviceId firmwareVersion : Option CString) :
    List (CString × CJsonItem) :=
  [(CString.ofText "device_id", .string (deviceId.getD (CString.ofText "unknown"))),
   (CString.ofText "sequence_id", .number event.sequenceId.toNat),
   (CString.ofText "event_type", .string (eventTypeToString event.type)),
   (CString.ofText "source_id", .number event.sourceId.toNat),
   (CString.ofText "value", .number event.value.toInt),
   (CString.ofText "timestamp_ms", .number (doubleOfUInt64 event.timestampMs)),
   (CString.ofText "firmware_version",
    .string (firmwareVersion.getD (CString.ofText "unknown")))]

/-- `MessageSerializer::serializeEvent`. `allocated` is whether cJSON got all
the memory it asked for; without it the result is the empty string. -/
def serializeEvent (cjson : CJson) (allocated : Bool) (event : Event)
    (deviceId firmwareVersion : Option CString) : String :=
  if !allocated then ""
  else cjson.printUnformatted (eventMembers event deviceId firmwareVersion)

end MessageSerializer

end KaizenStation.Firmware
