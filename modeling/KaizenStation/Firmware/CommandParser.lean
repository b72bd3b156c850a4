/-
KaizenStation.Firmware.CommandParser — `parseCommand` of
`network/MessageSerializer.cpp`.

cJSON is a managed component outside the source tree. `CJsonParse` is what
`cJSON_ParseWithOpts` makes of a text that must be used up entirely: the
decoded tree with its members in order, or `none` for a null pointer. The
accessors that the source calls on the tree are defined here; they compare
names and texts as C strings, so nothing after a U+0000 counts, and a missing
item is a null pointer that is of no type.
-/
import Mathlib.Data.List.Infix
import KaizenStation.Foundation.Json
import KaizenStation.Firmware.Event

namespace KaizenStation.Firmware

open KaizenStation.Foundation

/-- `cJSON_ParseWithOpts(text, nullptr, true)`. -/
abbrev CJsonParse := ByteArray → Option Json

namespace CJson

/-! ## Accessors -/

/-- The characters that a C string function sees. -/
def cText (s : String) : List Char := s.toList.takeWhile (fun c => c.toNat ≠ 0)

/-- `std::strcmp(a, b) == 0`. -/
def strcmpEq (a b : String) : Bool := cText a == cText b

/-- `cJSON_GetArraySize` of an object. -/
def getArraySize (members : List (String × Json)) : Nat := members.length

/-- `cJSON_GetObjectItemCaseSensitive`: the first member of that name. -/
def getObjectItem (members : List (String × Json)) (name : String) : Option Json :=
  (members.find? (fun member => strcmpEq name member.1)).map (·.2)

/-- `cJSON_IsString` and `valuestring`. -/
def valuestring? : Option Json → Option String
  | some (.str s) => some s
  | _ => none

def isBool : Option Json → Bool
  | some (.bool _) => true
  | _ => false

def isTrue : Option Json → Bool
  | some (.bool true) => true
  | _ => false

/-- `cJSON_IsNumber(value) && value->valuedouble == n`. -/
def isNumberEq (value : Option Json) (n : Int) : Bool :=
  match value with
  | some (.int k) => k == n
  | some (.float (some x)) => x == n
  | _ => false

end CJson

namespace MessageSerializer

open CJson

/-- The six characters of an escaped U+0000. -/
def escapedNul : List UInt8 := [0x5C, 0x75, 0x30, 0x30, 0x30, 0x30]

/-- `payload.find` of a NUL, raw or escaped. -/
def containsNul (payload : ByteArray) : Bool :=
  payload.data.toList.contains 0 || decide (escapedNul <:+: payload.data.toList)

/-- The text of a command decides the type of its event. -/
def commandType? (command : String) : Option EventType :=
  if strcmpEq command "set_output" then some .setOutput
  else if strcmpEq command "set_state" then some .remoteStateUpdate
  else none

/-- `MessageSerializer::parseCommand`. `now` is `esp_timer_get_time() / 1000`;
the answer comes with what `outputEvent` is afterwards. -/
def parseCommand (parse : CJsonParse) (now : UInt64) (payload : ByteArray) (outputEvent : Event) :
    Bool × Event :=
  if payload.size = 0 ∨ payload.size > 512 ∨ containsNul payload = true then (false, outputEvent)
  else
    match parse payload with
    | some (.obj root) =>
      let command := getObjectItem root "command"
      let value := getObjectItem root "value"
      match valuestring? command with
      | none => (false, outputEvent)
      | some text =>
        if getArraySize root ≠ 2 ∨
            ¬ (isBool value = true ∨ isNumberEq value 0 = true ∨ isNumberEq value 1 = true) then
          (false, outputEvent)
        else
          match commandType? text with
          | none => (false, outputEvent)
          | some type =>
            (true, {
              type := type
              value := if isTrue value || isNumberEq value 1 then 1 else 0
              timestampMs := now })
    | _ => (false, outputEvent)

end MessageSerializer

end KaizenStation.Firmware
