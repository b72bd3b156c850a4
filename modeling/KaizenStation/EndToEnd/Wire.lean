/-
KaizenStation.EndToEnd.Wire — the firmware's encoder against the backend's
decoder.

`stationEvent` is the event the backend should see for an event of the
firmware. The two sides agree on the object in between
(`object_stationEvent`), so an event that fits the table of inputs is read
back as that (`parse_serialized`), and every event the running station offers
to MQTT fits (`published_event_parses`).
-/
import KaizenStation.Firmware.MessageSerializerTheorems
import KaizenStation.Firmware.StationRunTheorems
import KaizenStation.Backend.ProtocolTheorems

namespace KaizenStation.EndToEnd

open KaizenStation.Foundation KaizenStation.Firmware KaizenStation.Backend

/-! ## The event on both sides -/

/-- The name the backend knows an event type by, if it does. -/
def inputKind? : EventType → Option InputKind
  | .buttonPressed => some .buttonPressed
  | .buttonReleased => some .buttonReleased
  | .toggleChanged => some .toggleChanged
  | .encoderChanged => some .encoderChanged
  | .analogChanged => some .analogChanged
  | .heartbeat => some .heartbeat
  | .faultDetected => some .faultDetected
  | .syncRequested => some .syncRequested
  | _ => none

def stationEvent (config : DeviceConfig) (event : Event) : Option StationEvent :=
  (inputKind? event.type).map fun kind => {
    deviceId := config.deviceId.text
    sequenceId := event.sequenceId.toNat
    eventType := kind
    sourceId := event.sourceId.toNat
    value := event.value.toInt
    timestampMs := event.timestampMs.toNat
    firmwareVersion := config.firmwareVersion.text }

theorem stationEvent_deviceId {config : DeviceConfig} {event : Event} {received : StationEvent}
    (h : stationEvent config event = some received) :
    received.deviceId = config.deviceId.text := by
  obtain ⟨kind, -, rfl⟩ := Option.map_eq_some_iff.mp h
  rfl

/-- A configuration the backend can work with. -/
structure ValidConfig (config : DeviceConfig) : Prop where
  device : isDeviceId config.deviceId.text = true
  version : 1 ≤ config.firmwareVersion.text.length ∧ config.firmwareVersion.text.length ≤ 64

theorem defaultConfig_valid : ValidConfig defaultConfig := ⟨by decide, by decide⟩

/-- The event types that are published are the names of `INPUTS`. -/
theorem inputKind?_isSome (event : Event) :
    (inputKind? event.type).isSome = Application.shouldPublish event := by
  unfold inputKind? Application.shouldPublish
  cases event.type <;> rfl

theorem inputKind?_name {type : EventType} {kind : InputKind} (h : inputKind? type = some kind) :
    kind.name = (MessageSerializer.eventTypeToString type).text := by
  cases type <;> cases h <;> rfl

/-- What the firmware writes is what the backend would write. -/
theorem object_stationEvent {config : DeviceConfig} {event : Event} {received : StationEvent}
    (h : stationEvent config event = some received) :
    received.object =
      MessageSerializer.eventObject event config.deviceId.text config.firmwareVersion.text := by
  obtain ⟨kind, hkind, rfl⟩ := Option.map_eq_some_iff.mp h
  simp only [StationEvent.object, MessageSerializer.eventObject, inputKind?_name hkind]

/-! ## Fitting the table of inputs -/

theorem int32_range (v : Int32) : -(2 ^ 31) ≤ v.toInt ∧ v.toInt ≤ 2 ^ 31 - 1 := by
  have hlo := v.minValue_le_toInt
  have hhi := v.toInt_lt
  have hmin : Int32.minValue.toInt = -(2 ^ 31) := by decide
  omega

/-- The type, the source and the value of an event are a row of `INPUTS`. -/
structure FitsInputs (event : Event) (kind : InputKind) : Prop where
  named : inputKind? event.type = some kind
  source : (event.sourceId.toNat : Int) = (INPUTS kind).1
  low : (INPUTS kind).2.1 ≤ event.value.toInt
  high : event.value.toInt ≤ (INPUTS kind).2.2

theorem FitsInputs.received {event : Event} {kind : InputKind} (h : FitsInputs event kind)
    (config : DeviceConfig) :
    ∃ received, stationEvent config event = some received ∧ received.eventType = kind ∧
      received.Fits :=
  ⟨_, by rw [stationEvent, h.named]; rfl, rfl, h.source, h.low, h.high⟩

theorem outgoing_fits {event : Event} (h : event.Outgoing) : ∃ kind, FitsInputs event kind := by
  have hrange := int32_range event.value
  have h0 : (0 : Int32).toInt = 0 := by decide
  have h1 : (1 : Int32).toInt = 1 := by decide
  have h100 : (100 : Int32).toInt = 100 := by decide
  rcases h with h | ⟨ht, hsource, hvalue⟩
  · unfold Event.Reported at h
    cases ht : event.type <;> simp only [ht] at h
    · exact ⟨.buttonPressed, by rw [ht]; rfl, by rw [h.1]; rfl, by rw [h.2]; decide,
        by rw [h.2]; decide⟩
    · exact ⟨.buttonReleased, by rw [ht]; rfl, by rw [h.1]; rfl, by rw [h.2]; decide,
        by rw [h.2]; decide⟩
    · refine ⟨.toggleChanged, by rw [ht]; rfl, by rw [h.1]; rfl, ?_, ?_⟩ <;>
        rcases h.2 with hv | hv <;> rw [hv] <;> decide
    · exact ⟨.encoderChanged, by rw [ht]; rfl, by rw [h]; rfl, hrange.1, hrange.2⟩
    · obtain ⟨hsource, hlow, hhigh⟩ := h
      rw [Int32.le_iff_toInt_le, h0] at hlow
      rw [Int32.le_iff_toInt_le, h100] at hhigh
      exact ⟨.analogChanged, by rw [ht]; rfl, by rw [hsource]; rfl, hlow, hhigh⟩
  · rw [Int32.le_iff_toInt_le, h0] at hvalue
    exact ⟨.heartbeat, by rw [ht]; rfl, by rw [hsource]; rfl, hvalue, hrange.2⟩

/-! ## The round trip -/

theorem stationEvent_wellFormed {config : DeviceConfig} (hcfg : ValidConfig config) {event : Event}
    (ht : event.timestampMs.toNat < 10 ^ 15) {received : StationEvent}
    (h : stationEvent config event = some received)
    (hsource : received.sourceId = (INPUTS received.eventType).1) : received.WellFormed := by
  have hs := event.sequenceId.toNat_lt
  obtain ⟨kind, hkind, rfl⟩ := Option.map_eq_some_iff.mp h
  refine ⟨hcfg.device, ⟨Int.natCast_nonneg _, ?_⟩, ⟨Int.natCast_nonneg _, ?_⟩, hsource,
    hcfg.version⟩
  · show (event.sequenceId.toNat : Int) ≤ 2 ^ 32 - 1
    omega
  · show (event.timestampMs.toNat : Int) ≤ 2 ^ 53 - 1
    omega

/-- What the backend makes of the text of an event whose source is right. -/
theorem parse_text {p : Platform} (hc : p.cjson.Standard) {loads : Loads}
    (hl : loads.Standard) (hcfg : ValidConfig p.config) {event : Event}
    (ht : event.timestampMs.toNat < 10 ^ 15) {received : StationEvent}
    (h : stationEvent p.config event = some received)
    (hsource : received.sourceId = (INPUTS received.eventType).1) {payload : Payload}
    (hp : payload.Carries (p.text event)) :
    parseEvent loads (Application.eventTopic p) payload =
      (integer (.int received.value) "value" (INPUTS received.eventType).2.1
        (INPUTS received.eventType).2.2).map fun _ => received := by
  have htext := MessageSerializer.serializeEvent_objectText hc ht p.config.deviceId
    p.config.firmwareVersion
  have hdevice : p.config.deviceId.text.toList.length ≤ 64 := by
    have := hcfg.device
    simp only [isDeviceId, Bool.and_eq_true, decide_eq_true_eq] at this
    rw [String.length_toList]
    exact this.2
  have hversion : p.config.firmwareVersion.text.toList.length ≤ 64 := by
    rw [String.length_toList]
    exact hcfg.version.2
  have hlen := Nat.le_trans hp.len_le
    (MessageSerializer.utf8Length_eventObject ht hdevice hversion htext)
  rw [← object_stationEvent h] at htext
  have htopic : Application.eventTopic p = eventTopicOf received.deviceId := by
    rw [stationEvent_deviceId h]
    rfl
  rw [htopic]
  exact parseEvent_object hl (stationEvent_wellFormed hcfg ht h hsource) htext hp hlen

/-- An event that fits the table is read back as itself from every payload
that carries its text. -/
theorem parse_serialized {p : Platform} (hc : p.cjson.Standard) {loads : Loads}
    (hl : loads.Standard) (hcfg : ValidConfig p.config) {event : Event}
    (ht : event.timestampMs.toNat < 10 ^ 15) {received : StationEvent}
    (h : stationEvent p.config event = some received) (hf : received.Fits) {payload : Payload}
    (hp : payload.Carries (p.text event)) :
    parseEvent loads (Application.eventTopic p) payload = .ok received := by
  rw [parse_text hc hl hcfg ht h hf.source hp, integer_within "value" hf.low hf.high]
  rfl

/-- Whatever the running station offers to MQTT, under any number, the backend
accepts with the same meaning. -/
theorem published_event_parses (p : Platform) (hc : p.cjson.Standard) (loads : Loads)
    (hl : loads.Standard) (hcfg : ValidConfig p.config) (r : Station.Readings) (mutex : Bool)
    (acts : List Act) (hacts : ∀ act ∈ acts, act.Quiet) (hsized : ∀ act ∈ acts, act.Sized) :
    ∀ attempt ∈ ((Station.boot r mutex).run p acts).application.attempts, ∀ id : UInt32,
      attempt.1.timestampMs.toNat < 10 ^ 15 → ∀ payload : Payload,
      payload.Carries (MessageSerializer.serializeEvent p.cjson true
        { attempt.1 with sequenceId := id } (some p.config.deviceId)
        (some p.config.firmwareVersion)) →
      ∃ received, parseEvent loads (Application.eventTopic p) payload = .ok received ∧
        received.deviceId = p.config.deviceId.text ∧
        received.sequenceId = id.toNat ∧
        received.eventType.name = (MessageSerializer.eventTypeToString attempt.1.type).text ∧
        received.sourceId = attempt.1.sourceId.toNat ∧
        received.value = attempt.1.value.toInt ∧
        received.timestampMs = attempt.1.timestampMs.toNat ∧
        received.firmwareVersion = p.config.firmwareVersion.text := by
  intro attempt hattempt id ht payload hp
  have hout := Station.run_attempts_outgoing p r mutex hacts hsized attempt hattempt
  have hout' : Event.Outgoing { attempt.1 with sequenceId := id } := hout
  have ht' : ({ attempt.1 with sequenceId := id } : Event).timestampMs.toNat < 10 ^ 15 := ht
  obtain ⟨kind, hkind⟩ := outgoing_fits hout'
  obtain ⟨received, hrec, -, hfits⟩ := hkind.received p.config
  refine ⟨received, parse_serialized hc hl hcfg ht' hrec hfits hp, ?_⟩
  obtain ⟨kind, hkind, rfl⟩ := Option.map_eq_some_iff.mp hrec
  exact ⟨rfl, rfl, inputKind?_name hkind, rfl, rfl, rfl, rfl⟩

/-- One step of the knob, as MQTT is offered it. -/
def turned : Event := { type := .encoderChanged, sourceId := 3, value := 1, sequenceId := 1 }

/-- The knob turns one step with a broker at hand; the number is the largest
there is. -/
theorem published_event_parses_turn :
    ∃ received, parseEvent Loads.reference (Application.eventTopic Platform.online)
        (.bytes (MessageSerializer.serializeEvent CJson.reference true
          { turned with sequenceId := 4294967295 } (some defaultConfig.deviceId)
          (some defaultConfig.firmwareVersion)).toUTF8) = .ok received ∧
      received.sequenceId = 4294967295 ∧ received.value = 1 := by
  have hmem : (turned, true) ∈ ((Station.boot {}).run Platform.online
      [.pollEncoder 0 1, .central 0]).application.attempts := by decide +kernel
  have hacts : ∀ act ∈ [Act.pollEncoder 0 1, Act.central 0], act.Quiet ∧ act.Sized := by
    intro act hact
    simp only [List.mem_cons, List.not_mem_nil, or_false] at hact
    rcases hact with rfl | rfl <;> exact ⟨by simp [Act.Quiet], by simp [Act.Sized]⟩
  obtain ⟨received, hparse, -, hid, -, -, hvalue, -⟩ :=
    published_event_parses Platform.online CJson.reference_standard Loads.reference
      Loads.reference_standard defaultConfig_valid {} true [.pollEncoder 0 1, .central 0]
      (fun act h => (hacts act h).1) (fun act h => (hacts act h).2) (turned, true) hmem 4294967295
      (by decide) _ (.inr rfl)
  exact ⟨received, hparse, hid, hvalue⟩

end KaizenStation.EndToEnd
