/-
KaizenStation.Firmware.MessageSerializerTheorems — the text of an event.

`CJson.Standard` is what the firmware relies on in cJSON: an object comes
out in compact form with its members in the order they were added, strings
as JSON strings, and integral doubles below 10^15 as plain decimals. Under it
an event serializes to the object `eventObject`, whatever the device is
called, as long as the uptime stays below 10^15 ms, and the text fits the
backend's limit when the two configured texts have at most 64 characters.
-/
import KaizenStation.Foundation.JsonTheorems
import KaizenStation.Firmware.MessageSerializer

namespace KaizenStation.Firmware

open KaizenStation.Foundation

/-- The value a cJSON item stands for. -/
def CJsonItem.value : CJsonItem → Json
  | .number valuedouble => .int valuedouble
  | .string valuestring => .str valuestring.text

def CJsonItem.named (m : CString × CJsonItem) : String × Json := (m.1.text, m.2.value)

/-- A number that `"%1.15g"` writes as plain digits. -/
def CJsonItem.Plain : CJsonItem → Prop
  | .number valuedouble => valuedouble.natAbs < 10 ^ 15
  | .string _ => True

structure CJson.Standard (cjson : CJson) : Prop where
  prints : ∀ members, members ≠ [] → (∀ m ∈ members, m.2.Plain) →
    Json.ObjectText (members.map CJsonItem.named) (cjson.printUnformatted members).toList

/-- A printer of the fragment, for every object but the empty one, whose
text it gets right as well. -/
def CJson.reference : CJson where
  printUnformatted := fun members =>
    String.ofList ((Json.printObject (members.map CJsonItem.named)).getD ['{', '}'])

theorem printScalar_item (item : CJsonItem) : ∃ t, Json.printScalar item.value = some t := by
  cases item <;> exact ⟨_, rfl⟩

theorem printMembers_items (m : CString × CJsonItem) (ms : List (CString × CJsonItem)) :
    ∃ t, Json.printMembers ((m :: ms).map CJsonItem.named) = some t := by
  induction ms generalizing m with
  | nil =>
    obtain ⟨vt, hv⟩ := printScalar_item m.2
    exact ⟨_, by simp [CJsonItem.named, Json.printMembers, hv]; rfl⟩
  | cons n ms ih =>
    obtain ⟨vt, hv⟩ := printScalar_item m.2
    obtain ⟨mt, hm⟩ := ih n
    refine ⟨Json.printString m.1.text ++ ':' :: vt ++ ',' :: mt, ?_⟩
    simp only [List.map_cons] at hm ⊢
    rw [CJsonItem.named, Json.printMembers.eq_def]
    simp [hv, hm]

theorem CJson.reference_standard : CJson.reference.Standard := by
  refine ⟨fun members hne _ => ?_⟩
  obtain ⟨m, ms, rfl⟩ := List.exists_cons_of_ne_nil hne
  obtain ⟨t, ht⟩ := printMembers_items m ms
  have hp : Json.printObject ((m :: ms).map CJsonItem.named) = some ('{' :: t ++ ['}']) := by
    rw [Json.printObject, ht]
    rfl
  show Json.ObjectText _
    (String.ofList ((Json.printObject ((m :: ms).map CJsonItem.named)).getD ['{', '}'])).toList
  rw [hp, Option.getD_some, String.toList_ofList]
  exact Json.objectText_of_print hp

namespace MessageSerializer

/-- The object an event is sent as. -/
def eventObject (event : Event) (deviceId firmwareVersion : String) : List (String × Json) :=
  [("device_id", .str deviceId),
   ("sequence_id", .int event.sequenceId.toNat),
   ("event_type", .str (eventTypeToString event.type).text),
   ("source_id", .int event.sourceId.toNat),
   ("value", .int event.value.toInt),
   ("timestamp_ms", .int event.timestampMs.toNat),
   ("firmware_version", .str firmwareVersion)]

theorem doubleOfUInt64_exact {n : UInt64} (h : n.toNat < 2 ^ 53) : doubleOfUInt64 n = n.toNat := by
  rw [doubleOfUInt64, if_pos h]

theorem eventMembers_named {event : Event} (ht : event.timestampMs.toNat < 2 ^ 53)
    (deviceId firmwareVersion : CString) :
    (eventMembers event (some deviceId) (some firmwareVersion)).map CJsonItem.named =
      eventObject event deviceId.text firmwareVersion.text := by
  simp only [eventMembers, eventObject, CJsonItem.named, CJsonItem.value, List.map_cons,
    List.map_nil, Option.getD_some, doubleOfUInt64_exact ht]
  rfl

theorem eventMembers_plain {event : Event} (ht : event.timestampMs.toNat < 10 ^ 15)
    (deviceId firmwareVersion : CString) :
    ∀ m ∈ eventMembers event (some deviceId) (some firmwareVersion), m.2.Plain := by
  have hs := event.sequenceId.toNat_lt
  have hi := event.sourceId.toNat_lt
  have hlo := event.value.minValue_le_toInt
  have hhi := event.value.toInt_lt
  have hd := doubleOfUInt64_exact (n := event.timestampMs) (by omega)
  intro m hm
  simp only [eventMembers, List.mem_cons, List.not_mem_nil, or_false] at hm
  rcases hm with rfl | rfl | rfl | rfl | rfl | rfl | rfl <;> simp only [CJsonItem.Plain]
  · omega
  · omega
  · have : Int32.minValue.toInt = -2147483648 := by decide
    omega
  · rw [hd]
    omega

/-- An event that is serialized at all is serialized as its object. -/
theorem serializeEvent_objectText {cjson : CJson} (hc : cjson.Standard) {event : Event}
    (ht : event.timestampMs.toNat < 10 ^ 15) (deviceId firmwareVersion : CString) :
    Json.ObjectText (eventObject event deviceId.text firmwareVersion.text)
      (serializeEvent cjson true event (some deviceId) (some firmwareVersion)).toList := by
  have h := hc.prints (eventMembers event (some deviceId) (some firmwareVersion))
    (by simp [eventMembers]) (eventMembers_plain ht deviceId firmwareVersion)
  rw [eventMembers_named (by omega)] at h
  exact h

/-- The text of an event stays within the backend's 4096 bytes. -/
theorem utf8Length_eventObject {event : Event} (ht : event.timestampMs.toNat < 10 ^ 15)
    {deviceId firmwareVersion : String} (hd : deviceId.toList.length ≤ 64)
    (hv : firmwareVersion.toList.length ≤ 64) {text : List Char}
    (h : Json.ObjectText (eventObject event deviceId firmwareVersion) text) :
    Json.utf8Length text ≤ 4096 := by
  have hb := Json.utf8Length_objectText h
  have hs := event.sequenceId.toNat_lt
  have hi := event.sourceId.toNat_lt
  have hlo := event.value.minValue_le_toInt
  have hhi := event.value.toInt_lt
  have hmin : Int32.minValue.toInt = -2147483648 := by decide
  have h1 := Json.decimal_length (n := (event.sequenceId.toNat : Int)) (k := 10) (by decide)
    (by omega)
  have h2 := Json.decimal_length (n := (event.sourceId.toNat : Int)) (k := 10) (by decide)
    (by omega)
  have h3 := Json.decimal_length (n := event.value.toInt) (k := 10) (by decide) (by omega)
  have h4 := Json.decimal_length (n := (event.timestampMs.toNat : Int)) (k := 15) (by decide)
    (by omega)
  have htype : (eventTypeToString event.type).text.toList.length ≤ 19 := by
    cases event.type <;> decide
  have hnames : "device_id".toList.length = 9 ∧ "sequence_id".toList.length = 11 ∧
      "event_type".toList.length = 10 ∧ "source_id".toList.length = 9 ∧
      "value".toList.length = 5 ∧ "timestamp_ms".toList.length = 12 ∧
      "firmware_version".toList.length = 16 := by decide
  simp only [eventObject, Json.membersBound, Json.scalarBound, List.map_cons, List.map_nil,
    List.sum_cons, List.sum_nil] at hb
  omega

end MessageSerializer

end KaizenStation.Firmware
