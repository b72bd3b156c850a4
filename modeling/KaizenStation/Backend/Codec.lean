/-
KaizenStation.Backend.Codec — events written by `to_json` and read by
`parse_event`.

A dataclass checks nothing, so a field of a `StationEvent` can hold anything;
`RawEvent` is one whose fields are JSON values. Of these `parse_event` gives
back, from its own text and on its own topic, exactly the valid ones, and
refuses every other that has a text with `ValueError` (`codec_exact`). A
field nested deeper than the interpreter follows has no text: `to_json`
raises `RecursionError`, which is no `ValueError`.
-/
import KaizenStation.Foundation.Dumps
import KaizenStation.Backend.ProtocolTheorems

namespace KaizenStation.Backend

open KaizenStation.Foundation

/-! ## Events before they are checked -/

@[ext]
structure RawEvent where
  deviceId : Json
  sequenceId : Json
  eventType : Json
  sourceId : Json
  value : Json
  timestampMs : Json
  firmwareVersion : Json

namespace RawEvent

/-- `asdict(self)`. -/
def object (e : RawEvent) : List (String × Json) :=
  [("device_id", e.deviceId), ("sequence_id", e.sequenceId), ("event_type", e.eventType),
   ("source_id", e.sourceId), ("value", e.value), ("timestamp_ms", e.timestampMs),
   ("firmware_version", e.firmwareVersion)]

/-- What `json.dumps` writes. An integer of more digits than Python converts
is a `ValueError` already there; here it has a text, which `parse_event`
refuses with one. -/
def text (floatRepr : Rat → String) (e : RawEvent) : String :=
  String.ofList (Json.dumps floatRepr (.obj e.object))

/-- How deep the lists and dictionaries in the fields are nested. -/
def depth (e : RawEvent) : Nat := Json.membersDepth e.object

/-- `to_json`. Both `asdict` and `json.dumps` call themselves for each level
of a list or a dictionary, and `recursion` is how many levels the interpreter
follows from where `to_json` is called; `none` is a `RecursionError`. -/
def toJson (recursion : Nat) (floatRepr : Rat → String) (e : RawEvent) : Option String :=
  if e.depth ≤ recursion then some (e.text floatRepr) else none

/-- The fields are what `parse_event` asks for. -/
structure Valid (e : RawEvent) : Prop where
  device : ∃ id, e.deviceId = .str id ∧ isDeviceId id = true
  input : ∃ (kind : InputKind) (source value : Int), e.eventType = .str kind.name ∧
    e.sourceId = .int source ∧ e.value = .int value ∧ source = (INPUTS kind).1 ∧
    (INPUTS kind).2.1 ≤ value ∧ value ≤ (INPUTS kind).2.2
  sequence : ∃ n : Int, e.sequenceId = .int n ∧ 0 ≤ n ∧ n ≤ 2 ^ 32 - 1
  timestamp : ∃ n : Int, e.timestampMs = .int n ∧ 0 ≤ n ∧ n ≤ 2 ^ 53 - 1
  version : ∃ text, e.firmwareVersion = .str text ∧ 1 ≤ text.length ∧ text.length ≤ 64

/-- The topic is `event_topic(e.device_id)`. -/
def OnTopic (e : RawEvent) (topic : String) : Prop :=
  ∃ id, e.deviceId = .str id ∧ eventTopic id = .ok topic

end RawEvent

/-- An event that was parsed, as the object it is. -/
def StationEvent.raw (event : StationEvent) : RawEvent where
  deviceId := .str event.deviceId
  sequenceId := .int event.sequenceId
  eventType := .str event.eventType.name
  sourceId := .int event.sourceId
  value := .int event.value
  timestampMs := .int event.timestampMs
  firmwareVersion := .str event.firmwareVersion

/-- What `json.loads` makes of a text of `json.dumps`, if it does not refuse it,
is the object that was written. -/
def Loads.Inverts (loads : Loads) (floatRepr : Rat → String) : Prop :=
  ∀ members tree, (Json.obj members).Representable →
    loads (.str (String.ofList (Json.dumps floatRepr (.obj members)))) = some tree →
      tree = .obj members

namespace RawEvent

/-! ## Valid events -/

theorem valid_iff {e : RawEvent} :
    e.Valid ↔ ∃ event : StationEvent, event.WellFormed ∧ event.Fits ∧ e = event.raw := by
  constructor
  · rintro ⟨⟨id, hid, hdevice⟩, ⟨kind, source, value, hkind, hsource, hvalue, hin, hlow, hhigh⟩,
      ⟨n, hn, hsequence⟩, ⟨t, ht, htimestamp⟩, ⟨version, hversion, hlength⟩⟩
    refine ⟨⟨id, n, kind, source, value, t, version⟩,
      ⟨hdevice, hsequence, htimestamp, hin, hlength⟩, ⟨hin, hlow, hhigh⟩, ?_⟩
    exact RawEvent.ext hid hn hkind hsource hvalue ht hversion
  · rintro ⟨event, hw, hf, rfl⟩
    exact ⟨⟨_, rfl, hw.device⟩, ⟨_, _, _, rfl, rfl, rfl, hf.source, hf.low, hf.high⟩,
      ⟨_, rfl, hw.sequence⟩, ⟨_, rfl, hw.timestamp⟩, ⟨_, rfl, hw.version⟩⟩

/-- The fields of an object tell the event. -/
theorem eq_raw_of_item {e : RawEvent} {event : StationEvent}
    (h : ∀ field ∈ event.object, item e.object field.1 = field.2) : e = event.raw := by
  simp only [StationEvent.object, List.forall_mem_cons, List.not_mem_nil, false_imp_iff,
    implies_true, and_true] at h
  obtain ⟨hid, hsequence, hkind, hsource, hvalue, htimestamp, hversion⟩ := h
  exact RawEvent.ext hid hsequence hkind hsource hvalue htimestamp hversion

theorem inputs_bounds (kind : InputKind) :
    0 ≤ (INPUTS kind).1 ∧ (INPUTS kind).1 ≤ 4 ∧ -(2 ^ 31) ≤ (INPUTS kind).2.1 ∧
      (INPUTS kind).2.2 ≤ 2 ^ 31 - 1 := by
  cases kind <;> decide

/-- A text of a valid event stays within the limit, however it is escaped. -/
theorem utf8Length_object {event : StationEvent} (hw : event.WellFormed) (hf : event.Fits)
    {text : List Char} (h : Json.ObjectText event.object text) : Json.utf8Length text ≤ 4096 := by
  have hbound := Json.utf8Length_objectText h
  obtain ⟨hlow, hhigh⟩ := hw.sequence
  obtain ⟨htlow, hthigh⟩ := hw.timestamp
  obtain ⟨hs0, hs4, hmin, hmax⟩ := inputs_bounds event.eventType
  have hvlow := hf.low
  have hvhigh := hf.high
  have hsource := hf.source
  have h1 : (Json.decimal event.sequenceId).length ≤ 11 :=
    Json.decimal_length (by decide) (by omega)
  have h2 : (Json.decimal event.sourceId).length ≤ 2 := Json.decimal_length (by decide) (by omega)
  have h3 : (Json.decimal event.value).length ≤ 11 := Json.decimal_length (by decide) (by omega)
  have h4 : (Json.decimal event.timestampMs).length ≤ 17 :=
    Json.decimal_length (by decide) (by omega)
  have hid : event.deviceId.toList.length ≤ 64 := by
    have hdevice := hw.device
    simp only [isDeviceId, Bool.and_eq_true, decide_eq_true_eq] at hdevice
    rw [String.length_toList]
    exact hdevice.2
  have hversion : event.firmwareVersion.toList.length ≤ 64 := by
    rw [String.length_toList]
    exact hw.version.2
  have hkind : event.eventType.name.toList.length ≤ 15 := by
    cases event.eventType <;> decide
  have hnames : "device_id".toList.length = 9 ∧ "sequence_id".toList.length = 11 ∧
      "event_type".toList.length = 10 ∧ "source_id".toList.length = 9 ∧
      "value".toList.length = 5 ∧ "timestamp_ms".toList.length = 12 ∧
      "firmware_version".toList.length = 16 := by decide
  simp only [StationEvent.object, Json.membersBound, Json.scalarBound, List.map_cons,
    List.map_nil, List.sum_cons, List.sum_nil] at hbound
  omega

theorem length_object {event : StationEvent} (hw : event.WellFormed) (hf : event.Fits)
    {text : List Char} (h : Json.ObjectText event.object text) : text.length ≤ 4096 :=
  (Json.length_le_utf8Length text).trans (utf8Length_object hw hf h)

theorem object_scalars (event : StationEvent) : ∀ m ∈ event.raw.object, m.2.IsScalar := by
  simp [StationEvent.raw, object, Json.IsScalar]

/-- The fields of a `StationEvent` that was parsed are not nested at all. -/
theorem toJson_raw (recursion : Nat) (floatRepr : Rat → String) (event : StationEvent) :
    event.raw.toJson recursion floatRepr = some (event.raw.text floatRepr) := by
  have hdepth : event.raw.depth = 0 := Json.membersDepth_scalars (object_scalars event)
  simp [toJson, hdepth]

theorem objectText_raw (floatRepr : Rat → String) (event : StationEvent) :
    Json.ObjectText event.object (event.raw.text floatRepr).toList := by
  rw [text, String.toList_ofList]
  exact Json.objectText_dumps floatRepr (by simp [StationEvent.object]) (object_scalars event)

/-- A valid event is read back, and its text is within the limit. -/
theorem parseEvent_text {loads : Loads} (hl : loads.Standard) (floatRepr : Rat → String)
    {event : StationEvent} (hw : event.WellFormed) (hf : event.Fits) :
    (event.raw.text floatRepr).length ≤ 4096 ∧
      parseEvent loads (eventTopicOf event.deviceId) (.str (event.raw.text floatRepr)) =
        .ok event := by
  have htext := objectText_raw floatRepr event
  have hlen : (event.raw.text floatRepr).length ≤ 4096 := by
    rw [← String.length_toList]
    exact length_object hw hf htext
  refine ⟨hlen, ?_⟩
  rw [parseEvent_object hl hw htext (.inl rfl) hlen, integer_within _ hf.low hf.high]
  rfl

/-- Every other event, and every other topic, is refused. -/
theorem parseEvent_text_error {loads : Loads} {floatRepr : Rat → String}
    (hi : loads.Inverts floatRepr) {topic : String} {e : RawEvent}
    (he : (Json.obj e.object).Representable) (hnot : ¬ (e.Valid ∧ e.OnTopic topic)) :
    ∃ message, parseEvent loads topic (.str (e.text floatRepr)) =
      .error (.valueError message) := by
  cases hparse : parseEvent loads topic (.str (e.text floatRepr)) with
  | ok event =>
    obtain ⟨data, hdata, -, hitems, htopic, hw, hf⟩ := parseEvent_ok.mp hparse
    obtain ⟨-, hloads, -⟩ := jsonObject_ok.mp hdata
    cases hi e.object _ he hloads
    obtain rfl := eq_raw_of_item hitems
    exact absurd ⟨valid_iff.mpr ⟨event, hw, hf, rfl⟩, event.deviceId, rfl,
      htopic ▸ eventTopic_valid hw.device⟩ hnot
  | error error =>
    cases error with
    | valueError message => exact ⟨message, rfl⟩
    | runtimeError message =>
      exact absurd hparse (RaisesValueError.parseEvent loads topic _ message)

/-! ## The result -/

/-- Every valid event has a text, within the limit, from which it is read back
on its own topic, however little recursion is left. Every other event, and
every other topic, is refused with a `ValueError`, if the event has a text;
one nested deeper than the interpreter follows has none. -/
theorem codec_exact (loads : Loads) (hl : loads.Standard) (recursion : Nat)
    (floatRepr : Rat → String) (hi : loads.Inverts floatRepr) (topic : String) (e : RawEvent)
    (he : (Json.obj e.object).Representable) :
    (e.Valid ∧ e.OnTopic topic →
      ∃ text, e.toJson recursion floatRepr = some text ∧ text.length ≤ 4096 ∧
        (parseEvent loads topic (.str text)).map StationEvent.raw = .ok e) ∧
    (¬ (e.Valid ∧ e.OnTopic topic) → e.depth ≤ recursion →
      ∃ text message, e.toJson recursion floatRepr = some text ∧
        parseEvent loads topic (.str text) = .error (.valueError message)) ∧
    (recursion < e.depth → e.toJson recursion floatRepr = none) := by
  refine ⟨?_, fun hnot hdepth => ?_, fun hdeep => if_neg (Nat.not_le.mpr hdeep)⟩
  · rintro ⟨hvalid, id, hid, htopic⟩
    obtain ⟨event, hw, hf, rfl⟩ := valid_iff.mp hvalid
    cases hid
    obtain ⟨-, rfl⟩ := eventTopic_ok.mp htopic
    obtain ⟨hlen, hparse⟩ := parseEvent_text hl floatRepr hw hf
    refine ⟨_, toJson_raw recursion floatRepr event, hlen, ?_⟩
    rw [hparse]
    rfl
  · obtain ⟨message, hparse⟩ := parseEvent_text_error hi he hnot
    exact ⟨_, message, if_pos hdepth, hparse⟩

end RawEvent

/-! ## The reader of the fragment -/

/-- It reads no double. -/
theorem Loads.reference_inverts : Loads.reference.Inverts fun _ => "float" := by
  intro members tree hmembers h
  have hrepr : ∀ (x : Rat) rest, Json.readScalar (((fun _ => "float") x : String).toList ++ rest) =
      none := by
    intro x rest
    have hchars : "float".toList = ['f', 'l', 'o', 'a', 't'] := by decide
    rw [hchars]
    simp [Json.readScalar, Json.readNat]
  simp only [Loads.reference, String.toList_ofList, Option.map_eq_some_iff] at h
  obtain ⟨read, hread, rfl⟩ := h
  rw [Json.readObject_dumps _ hrepr hmembers hread]

/-- A switch that has been turned on, in a version that needs escapes; and the
same with a Boolean for its value. -/
def turnedOn (value : Json) : RawEvent where
  deviceId := .str "station_01"
  sequenceId := .int 1
  eventType := .str "toggle_changed"
  sourceId := .int 2
  value := value
  timestampMs := .int 100
  firmwareVersion := .str "\"é😀"

theorem turnedOn_representable {value : Json} (hvalue : value.Representable) :
    (Json.obj (turnedOn value).object).Representable := by
  refine ⟨⟨trivial, trivial, trivial, trivial, hvalue, trivial, trivial, trivial⟩, ?_⟩
  show StationEvent.fields.Nodup
  decide

theorem turnedOn_valid {value : Json} (h : (turnedOn value).Valid) : ∃ n, value = .int n := by
  obtain ⟨kind, source, n, -, -, hvalue, -⟩ := h.input
  exact ⟨n, hvalue⟩

theorem codec_exact_turnedOn :
    (∃ text, (turnedOn (.int 1)).toJson 0 (fun _ => "float") = some text ∧ text.length ≤ 4096 ∧
      (parseEvent Loads.reference "kaizen/stations/station_01/events" (.str text)).map
        StationEvent.raw = .ok (turnedOn (.int 1))) ∧
    ∃ text message, (turnedOn (.bool true)).toJson 0 (fun _ => "float") = some text ∧
      parseEvent Loads.reference "kaizen/stations/station_01/events" (.str text) =
        .error (.valueError message) := by
  have hcodec := RawEvent.codec_exact Loads.reference Loads.reference_standard 0
    (fun _ => "float") Loads.reference_inverts "kaizen/stations/station_01/events"
  constructor
  · refine (hcodec (turnedOn (.int 1)) (turnedOn_representable trivial)).1 ⟨?_, ?_⟩
    · exact ⟨⟨_, rfl, by decide⟩, ⟨.toggleChanged, 2, 1, rfl, rfl, rfl, by decide, by decide,
        by decide⟩, ⟨1, rfl, by decide, by decide⟩, ⟨100, rfl, by decide, by decide⟩,
        ⟨_, rfl, by decide, by decide⟩⟩
    · exact ⟨"station_01", rfl, by rfl⟩
  · refine (hcodec (turnedOn (.bool true)) (turnedOn_representable trivial)).2.1 ?_ (by decide)
    rintro ⟨hvalid, -⟩
    obtain ⟨n, hn⟩ := turnedOn_valid hvalid
    cases hn

/-- An empty list inside `n` others. -/
def nested : Nat → Json
  | 0 => .arr []
  | n + 1 => .arr [nested n]

theorem nested_representable (n : Nat) : (nested n).Representable := by
  induction n with
  | zero => trivial
  | succ n ih => exact ⟨ih, trivial⟩

theorem depth_nested (n : Nat) : (nested n).depth = n + 1 := by
  induction n with
  | zero => rfl
  | succ n ih => simp [nested, Json.depth, Json.itemsDepth, ih]

/-- CPython's limit is 1000 frames and a level takes at least one, so a list
in a thousand others is never written: the event is representable and not
valid, and no `ValueError` is raised. -/
theorem nested_event_not_written :
    (Json.obj (turnedOn (nested 1000)).object).Representable ∧
      ¬ (turnedOn (nested 1000)).Valid ∧
      ∀ loads topic floatRepr, ¬ ∃ text message,
        (turnedOn (nested 1000)).toJson 1000 floatRepr = some text ∧
          parseEvent loads topic (.str text) = .error (.valueError message) := by
  refine ⟨turnedOn_representable (nested_representable 1000), ?_, ?_⟩
  · intro h
    obtain ⟨n, hn⟩ := turnedOn_valid h
    cases hn
  · rintro loads topic floatRepr ⟨text, message, htext, -⟩
    have hdepth : (turnedOn (nested 1000)).depth = 1001 := by
      simp [RawEvent.depth, RawEvent.object, turnedOn, Json.membersDepth, Json.depth, depth_nested]
    simp [RawEvent.toJson, hdepth] at htext

end KaizenStation.Backend
