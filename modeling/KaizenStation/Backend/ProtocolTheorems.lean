/-
KaizenStation.Backend.ProtocolTheorems — what the backend's parsers accept.

`Loads.Standard` is what the backend relies on in Python's `json`: a compact
object within the size limit decodes to its members. Under it a well-formed
station event is read back from every text of it, raw or UTF-8, on its own
topic, unless its value is out of range (`parseEvent_object`), and a command
for a valid station can always be made (`makeCommand_valid`). What a parser
has accepted is described by `parseEvent_ok` and the lemmas before it.
-/
import KaizenStation.Foundation.JsonTheorems
import KaizenStation.Backend.Protocol

namespace KaizenStation.Backend

open KaizenStation.Foundation

/-! ## Payloads -/

/-- The payload is this text, as `str` or in UTF-8. -/
def Payload.Carries (payload : Payload) (text : String) : Prop :=
  payload = .str text ∨ payload = .bytes text.toUTF8

theorem fromUTF8?_toUTF8 (text : String) : String.fromUTF8? text.toUTF8 = some text := by
  show (if h : text.toByteArray.IsValidUTF8 then some (String.fromUTF8 text.toByteArray h)
    else none) = some text
  rw [dif_pos text.isValidUTF8]
  rfl

theorem size_toUTF8 (text : String) : text.toUTF8.size = Json.utf8Length text.toList := by
  have hlist : ∀ l : List Char, l.utf8Encode.size = Json.utf8Length l := by
    intro l
    induction l with
    | nil => rfl
    | cons c l ih =>
      rw [List.utf8Encode_cons, ByteArray.size_append, ih, Json.utf8Length_cons]
      simp [List.utf8Encode]
  rw [← hlist]
  show text.toByteArray.size = _
  rw [← String.toByteArray_ofList, String.ofList_toList]

/-- Neither reading of a text is longer than its UTF-8 form. -/
theorem Payload.Carries.len_le {payload : Payload} {text : String} (h : payload.Carries text) :
    payload.len ≤ Json.utf8Length text.toList := by
  rcases h with rfl | rfl
  · show text.length ≤ _
    rw [← String.length_toList]
    exact Json.length_le_utf8Length _
  · exact Nat.le_of_eq (size_toUTF8 text)

/-! ## What is assumed of `json.loads` -/

structure Loads.Standard (loads : Loads) : Prop where
  decodes : ∀ members text payload, Json.ObjectText members text.toList →
    Payload.Carries payload text → payload.len ≤ 4096 → loads payload = some (.obj members)

/-- A reader of the fragment. -/
def Loads.reference : Loads
  | .str text => (Json.readObject text.toList).map .obj
  | .bytes data => (String.fromUTF8? data).bind fun text =>
    (Json.readObject text.toList).map .obj

theorem Loads.reference_standard : Loads.reference.Standard := by
  refine ⟨fun members text payload htext hp _ => ?_⟩
  have hread := Json.readObject_of_objectText htext
  rcases hp with rfl | rfl
  · simp [Loads.reference, hread]
  · rw [Loads.reference, fromUTF8?_toUTF8]
    simp [hread]

/-! ## Objects -/

theorem uniqueObject_nodup {pairs result : List (String × Json)}
    (h : ((result ++ pairs).map (·.1)).Nodup) :
    uniqueObject pairs result = .ok (result ++ pairs) := by
  induction pairs generalizing result with
  | nil => simp [uniqueObject]
  | cons pair rest ih =>
    obtain ⟨key, value⟩ := pair
    have hnone : result.lookup key = none := by
      rw [List.lookup_eq_none_iff]
      intro p hp
      rw [List.map_append, List.nodup_append] at h
      have hne := h.2.2 p.1 (List.mem_map_of_mem hp) key (by simp)
      simpa [beq_eq_false_iff_ne] using Ne.symm hne
    have h' : (((result ++ [(key, value)]) ++ rest).map (·.1)).Nodup := by simpa using h
    rw [uniqueObject, hnone, ih h']
    simp

/-- A scalar passes both hooks. -/
theorem hooks_scalar {value : Json} {text : List Char} (h : Json.ScalarText value text) :
    hooks value = .ok () := by
  cases h <;> rfl

theorem memberHooks_members {members : List (String × Json)} {text : List Char}
    (h : Json.MembersText members text) : memberHooks members = .ok () := by
  induction h with
  | last _ hv =>
    rw [memberHooks, hooks_scalar hv]
    rfl
  | cons _ hv _ ih =>
    rw [memberHooks, hooks_scalar hv]
    exact ih

/-- A payload that carries a compact object with distinct names is decoded to
its members. -/
theorem jsonObject_members {loads : Loads} (hl : loads.Standard) {members : List (String × Json)}
    {text : String} (htext : Json.ObjectText members text.toList)
    (hunique : (members.map (·.1)).Nodup) {payload : Payload} (hp : payload.Carries text)
    {limit : Nat} (hlimit : limit ≤ 4096) (hlen : payload.len ≤ limit) :
    jsonObject loads payload limit = .ok members := by
  obtain ⟨body, hbody, -⟩ := id htext
  have hdata := hl.decodes members text payload htext hp (Nat.le_trans hlen hlimit)
  have hpairs : uniqueObject members = .ok members := uniqueObject_nodup (by simpa using hunique)
  have hhooks : hooks (.obj members) = .ok () := by
    rw [hooks, memberHooks_members hbody, hpairs]
    rfl
  simp [jsonObject, require, hlen, hdata, hhooks, bind, Except.bind]

/-! ## Events -/

/-- `asdict(self)`. -/
def StationEvent.object (event : StationEvent) : List (String × Json) :=
  [("device_id", .str event.deviceId),
   ("sequence_id", .int event.sequenceId),
   ("event_type", .str event.eventType.name),
   ("source_id", .int event.sourceId),
   ("value", .int event.value),
   ("timestamp_ms", .int event.timestampMs),
   ("firmware_version", .str event.firmwareVersion)]

/-- The source and the value are what `INPUTS` allows for the type. -/
structure StationEvent.Fits (event : StationEvent) : Prop where
  source : event.sourceId = (INPUTS event.eventType).1
  low : (INPUTS event.eventType).2.1 ≤ event.value
  high : event.value ≤ (INPUTS event.eventType).2.2

/-- Everything `parse_event` tests but the value. -/
structure StationEvent.WellFormed (event : StationEvent) : Prop where
  device : isDeviceId event.deviceId = true
  sequence : 0 ≤ event.sequenceId ∧ event.sequenceId ≤ 2 ^ 32 - 1
  timestamp : 0 ≤ event.timestampMs ∧ event.timestampMs ≤ 2 ^ 53 - 1
  source : event.sourceId = (INPUTS event.eventType).1
  version : 1 ≤ event.firmwareVersion.length ∧ event.firmwareVersion.length ≤ 64

/-- The topics of a station, without the test of its name. -/
def eventTopicOf (station : String) : String := BASE_TOPIC ++ "/" ++ station ++ "/events"

def commandTopicOf (station : String) : String := BASE_TOPIC ++ "/" ++ station ++ "/commands"

/-- A topic names its station. -/
theorem topic_inj {a b ending : String}
    (h : BASE_TOPIC ++ "/" ++ a ++ ending = BASE_TOPIC ++ "/" ++ b ++ ending) : a = b := by
  have hlist := congrArg String.toList h
  simp only [String.toList_append, List.append_assoc, List.append_cancel_left_eq,
    List.append_cancel_right_eq] at hlist
  exact String.toList_inj.mp hlist

theorem eventTopicOf_inj {a b : String} (h : eventTopicOf a = eventTopicOf b) : a = b :=
  topic_inj h

theorem commandTopicOf_inj {a b : String} (h : commandTopicOf a = commandTopicOf b) : a = b :=
  topic_inj h

theorem deviceId_valid {text : String} (h : isDeviceId text = true) :
    deviceId (.str text) = .ok text := by
  simp [deviceId, h]

theorem eventTopic_valid {text : String} (h : isDeviceId text = true) :
    eventTopic text = .ok (eventTopicOf text) := by
  simp [eventTopic, deviceId_valid h, bind, Except.bind, pure, Except.pure, eventTopicOf]

theorem commandTopic_valid {text : String} (h : isDeviceId text = true) :
    commandTopic text = .ok (commandTopicOf text) := by
  simp [commandTopic, deviceId_valid h, bind, Except.bind, pure, Except.pure, commandTopicOf]

theorem inputKind_name (kind : InputKind) : inputKind (.str kind.name) = .ok kind := by
  cases kind <;> rfl

theorem integer_within {n low high : Int} (name : String) (hlow : low ≤ n) (hhigh : n ≤ high) :
    integer (.int n) name low high = .ok n := by
  simp [integer, hlow, hhigh]

/-- On its own topic, an object with the fields of a well-formed event is that
event if its value is in range. -/
theorem parseEvent_items {loads : Loads} {payload : Payload} {data : List (String × Json)}
    (hdata : jsonObject loads payload = .ok data)
    (hfields : hasFields data StationEvent.fields = true) {event : StationEvent}
    (hitems : ∀ field ∈ event.object, item data field.1 = field.2) (hv : event.WellFormed) :
    parseEvent loads (eventTopicOf event.deviceId) payload =
      (integer (.int event.value) "value" (INPUTS event.eventType).2.1
        (INPUTS event.eventType).2.2).map fun _ => event := by
  simp only [StationEvent.object, List.forall_mem_cons, List.not_mem_nil, false_imp_iff,
    implies_true, and_true] at hitems
  obtain ⟨hid, hseq, hkind, hsrc, hval, htim, hver⟩ := hitems
  have hsequence := integer_within "sequence_id" hv.sequence.1 hv.sequence.2
  have htime := integer_within "timestamp_ms" hv.timestamp.1 hv.timestamp.2
  have hsource := integer_within "source_id" (Int.le_of_eq hv.source.symm)
    (Int.le_of_eq hv.source)
  have hversion : firmwareVersion (.str event.firmwareVersion) = .ok event.firmwareVersion := by
    simp [firmwareVersion, hv.version]
  unfold parseEvent
  simp only [hdata, bind, Except.bind, hfields, require, if_true, hid, deviceId_valid hv.device,
    eventTopic_valid hv.device, beq_self_eq_true, hkind, inputKind_name, hseq, hsequence, htim,
    htime, hsrc, hsource, hval, hver, hversion, pure, Except.pure]
  by_cases hin : (INPUTS event.eventType).2.1 ≤ event.value ∧
      event.value ≤ (INPUTS event.eventType).2.2
  · rw [integer_within "value" hin.1 hin.2]
    rfl
  · simp [integer, hin, Except.map]

/-- From every payload that carries it, on its own topic, a well-formed event
is read back if its value is in range. -/
theorem parseEvent_object {loads : Loads} (hl : loads.Standard) {event : StationEvent}
    (hv : event.WellFormed) {text : String} (htext : Json.ObjectText event.object text.toList)
    {payload : Payload} (hp : payload.Carries text) (hlen : payload.len ≤ 4096) :
    parseEvent loads (eventTopicOf event.deviceId) payload =
      (integer (.int event.value) "value" (INPUTS event.eventType).2.1
        (INPUTS event.eventType).2.2).map fun _ => event := by
  have hunique : (event.object.map (·.1)).Nodup :=
    show StationEvent.fields.Nodup by decide
  have hfields : hasFields event.object StationEvent.fields = true := by
    simp [hasFields, StationEvent.object, StationEvent.fields]
  have hitems : ∀ field ∈ event.object, item event.object field.1 = field.2 := by
    simp only [StationEvent.object, List.forall_mem_cons, List.not_mem_nil, false_imp_iff,
      implies_true, and_true]
    exact ⟨rfl, rfl, rfl, rfl, rfl, rfl, rfl⟩
  exact parseEvent_items (jsonObject_members hl htext hunique hp (Nat.le_refl _) hlen) hfields
    hitems hv

/-! ## What a success says -/

theorem bind_ok {α β : Type} {x : Except PyError α} {f : α → Except PyError β} {b : β} :
    (x >>= f) = .ok b ↔ ∃ a, x = .ok a ∧ f a = .ok b := by
  cases x with
  | error e => simp [bind, Except.bind]
  | ok a => simp [bind, Except.bind]

theorem require_ok {test : Bool} {message : String} {u : Unit} :
    require test message = .ok u ↔ test = true := by
  cases test <;> simp [require]

theorem jsonObject_ok {loads : Loads} {payload : Payload} {limit : Nat}
    {data : List (String × Json)} :
    jsonObject loads payload limit = .ok data ↔
      payload.len ≤ limit ∧ loads payload = some (.obj data) ∧ hooks (.obj data) = .ok () := by
  by_cases hlen : payload.len ≤ limit
  · cases hl : loads payload with
    | none => simp [jsonObject, require, hlen, hl, bind, Except.bind]
    | some tree =>
      cases hh : hooks tree with
      | error e =>
        simp only [jsonObject, require, hlen, hl, hh, bind, Except.bind, decide_true, if_true]
        constructor
        · intro h
          cases h
        · rintro ⟨-, h, h'⟩
          cases h
          rw [hh] at h'
          cases h'
      | ok _ =>
        cases tree with
        | obj members =>
          simp only [jsonObject, require, hlen, hl, hh, bind, Except.bind, decide_true, if_true]
          constructor
          · intro h
            cases h
            exact ⟨trivial, rfl, hh⟩
          · rintro ⟨-, h, -⟩
            cases h
            rfl
        | _ => simp [jsonObject, require, hlen, hl, hh, bind, Except.bind]
  · simp [jsonObject, require, hlen, bind, Except.bind]

theorem deviceId_ok {value : Json} {station : String} :
    deviceId value = .ok station ↔ value = .str station ∧ isDeviceId station = true := by
  constructor
  · intro h
    cases value with
    | str text =>
      simp only [deviceId] at h
      split at h
      · next hid =>
        cases h
        exact ⟨rfl, hid⟩
      · cases h
    | _ => cases h
  · rintro ⟨rfl, hid⟩
    exact deviceId_valid hid

theorem eventTopic_ok {station topic : String} :
    eventTopic station = .ok topic ↔ isDeviceId station = true ∧ topic = eventTopicOf station := by
  constructor
  · intro h
    obtain ⟨id, hid, htopic⟩ := bind_ok.mp h
    obtain ⟨hstr, hvalid⟩ := deviceId_ok.mp hid
    cases hstr
    cases htopic
    exact ⟨hvalid, rfl⟩
  · rintro ⟨hvalid, rfl⟩
    exact eventTopic_valid hvalid

theorem integer_ok {value : Json} {name : String} {low high n : Int} :
    integer value name low high = .ok n ↔ value = .int n ∧ low ≤ n ∧ n ≤ high := by
  constructor
  · intro h
    cases value with
    | int k =>
      simp only [integer] at h
      split at h
      · next hin =>
        cases h
        exact ⟨rfl, hin⟩
      · cases h
    | _ => cases h
  · rintro ⟨rfl, hlow, hhigh⟩
    exact integer_within name hlow hhigh

theorem inputKind_ok {value : Json} {kind : InputKind} :
    inputKind value = .ok kind ↔ value = .str kind.name := by
  constructor
  · intro h
    cases value with
    | str name =>
      simp only [inputKind] at h
      cases hk : InputKind.ofName? name with
      | none =>
        rw [hk] at h
        cases h
      | some found =>
        rw [hk] at h
        cases h
        have hname := List.find?_some hk
        rw [of_decide_eq_true hname]
    | _ => cases h
  · rintro rfl
    exact inputKind_name kind

theorem firmwareVersion_ok {value : Json} {version : String} :
    firmwareVersion value = .ok version ↔
      value = .str version ∧ 1 ≤ version.length ∧ version.length ≤ 64 := by
  constructor
  · intro h
    cases value with
    | str text =>
      simp only [firmwareVersion] at h
      split at h
      · next hlen =>
        cases h
        exact ⟨rfl, hlen⟩
      · cases h
    | _ => cases h
  · rintro ⟨rfl, hlen⟩
    simp [firmwareVersion, hlen]

/-- A payload is accepted as an event exactly if it is an object with the
seven fields of a well-formed event that fits the inputs, on its topic. -/
theorem parseEvent_ok {loads : Loads} {topic : String} {payload : Payload} {event : StationEvent} :
    parseEvent loads topic payload = .ok event ↔
      ∃ data, jsonObject loads payload = .ok data ∧
        hasFields data StationEvent.fields = true ∧
        (∀ field ∈ event.object, item data field.1 = field.2) ∧
        topic = eventTopicOf event.deviceId ∧ event.WellFormed ∧ event.Fits := by
  constructor
  · intro h
    obtain ⟨data, hdata, h⟩ := bind_ok.mp h
    obtain ⟨_, hfields, h⟩ := bind_ok.mp h
    obtain ⟨station, hstation, h⟩ := bind_ok.mp h
    obtain ⟨expected, hexpected, h⟩ := bind_ok.mp h
    obtain ⟨_, htopic, h⟩ := bind_ok.mp h
    obtain ⟨kind, hkind, h⟩ := bind_ok.mp h
    obtain ⟨sequenceId, hsequence, h⟩ := bind_ok.mp h
    obtain ⟨timestampMs, htime, h⟩ := bind_ok.mp h
    obtain ⟨sourceId, hsource, h⟩ := bind_ok.mp h
    obtain ⟨value, hvalue, h⟩ := bind_ok.mp h
    obtain ⟨version, hversion, h⟩ := bind_ok.mp h
    cases h
    obtain ⟨hid, hvalid⟩ := deviceId_ok.mp hstation
    obtain ⟨hseq, hseqlow, hseqhigh⟩ := integer_ok.mp hsequence
    obtain ⟨htim, htimlow, htimhigh⟩ := integer_ok.mp htime
    obtain ⟨hsrc, hsrclow, hsrchigh⟩ := integer_ok.mp hsource
    obtain ⟨hval, hvallow, hvalhigh⟩ := integer_ok.mp hvalue
    obtain ⟨hver, hverlen⟩ := firmwareVersion_ok.mp hversion
    have htop : topic = eventTopicOf station := by
      rw [← (eventTopic_ok.mp hexpected).2]
      exact beq_iff_eq.mp (require_ok.mp htopic)
    refine ⟨data, hdata, require_ok.mp hfields, ?_, htop,
      ⟨hvalid, ⟨hseqlow, hseqhigh⟩, ⟨htimlow, htimhigh⟩, ?_, hverlen⟩, ?_, hvallow, hvalhigh⟩
    · intro field hfield
      simp only [StationEvent.object, List.mem_cons, List.not_mem_nil, or_false] at hfield
      rcases hfield with rfl | rfl | rfl | rfl | rfl | rfl | rfl
      · exact hid
      · exact hseq
      · exact inputKind_ok.mp hkind
      · exact hsrc
      · exact hval
      · exact htim
      · exact hver
    · exact Int.le_antisymm hsrchigh hsrclow
    · exact Int.le_antisymm hsrchigh hsrclow
  · rintro ⟨data, hdata, hfields, hitems, rfl, hw, hf⟩
    rw [parseEvent_items hdata hfields hitems hw, integer_within _ hf.low hf.high]
    rfl

/-- A payload is accepted as a command exactly if it is an object with the two
fields of one. -/
theorem parseCommand_ok {loads : Loads} {payload : Payload} {command : Command} {on : Bool} :
    parseCommand loads payload = .ok (command, on) ↔
      ∃ data, jsonObject loads payload 512 = .ok data ∧
        hasFields data ["command", "value"] = true ∧
        commandName (item data "command") = .ok command ∧
        commandValue (item data "value") = .ok on := by
  constructor
  · intro h
    obtain ⟨data, hdata, h⟩ := bind_ok.mp h
    obtain ⟨_, hfields, h⟩ := bind_ok.mp h
    obtain ⟨_, hname, h⟩ := bind_ok.mp h
    obtain ⟨_, hvalue, h⟩ := bind_ok.mp h
    cases h
    exact ⟨data, hdata, require_ok.mp hfields, hname, hvalue⟩
  · rintro ⟨data, hdata, hfields, hname, hvalue⟩
    refine bind_ok.mpr ⟨data, hdata, bind_ok.mpr ⟨(), require_ok.mpr hfields, ?_⟩⟩
    exact bind_ok.mpr ⟨command, hname, bind_ok.mpr ⟨on, hvalue, rfl⟩⟩

/-! ## What a failure is -/

/-- What is raised, if anything, is a `ValueError`. -/
def RaisesValueError {α : Type} (x : Except PyError α) : Prop :=
  ∀ message, x ≠ .error (.runtimeError message)

namespace RaisesValueError

theorem ok {α : Type} (a : α) : RaisesValueError (.ok a) := by
  intro message h
  cases h

theorem error {α : Type} (message : String) :
    RaisesValueError (.error (.valueError message) : Except PyError α) := by
  intro message h
  cases h

theorem bind {α β : Type} {x : Except PyError α} {f : α → Except PyError β}
    (hx : RaisesValueError x) (hf : ∀ a, RaisesValueError (f a)) : RaisesValueError (x >>= f) := by
  intro message h
  cases x with
  | error e => exact hx message (congrArg Except.error (Except.error.inj h))
  | ok a => exact hf a message h

theorem require (test : Bool) (message : String) :
    RaisesValueError (Backend.require test message) := by
  unfold Backend.require
  split
  · exact ok ()
  · exact error message

theorem deviceId (value : Json) : RaisesValueError (Backend.deviceId value) := by
  unfold Backend.deviceId
  cases value with
  | str text =>
    simp only
    split
    · exact ok text
    · exact error _
  | _ => exact error _

theorem eventTopic (station : String) : RaisesValueError (Backend.eventTopic station) :=
  (deviceId (.str station)).bind fun _ => ok _

theorem inputKind (value : Json) : RaisesValueError (Backend.inputKind value) := by
  unfold Backend.inputKind
  cases value with
  | str name =>
    simp only
    split
    · exact ok _
    · exact error _
  | _ => exact error _

theorem integer (value : Json) (name : String) (low high : Int) :
    RaisesValueError (Backend.integer value name low high) := by
  unfold Backend.integer
  cases value with
  | int n =>
    simp only
    split
    · exact ok n
    · exact error _
  | _ => exact error _

theorem firmwareVersion (value : Json) : RaisesValueError (Backend.firmwareVersion value) := by
  unfold Backend.firmwareVersion
  cases value with
  | str version =>
    simp only
    split
    · exact ok version
    · exact error _
  | _ => exact error _

theorem uniqueObject (pairs result : List (String × Json)) :
    RaisesValueError (Backend.uniqueObject pairs result) := by
  induction pairs generalizing result with
  | nil => exact ok result
  | cons pair rest ih =>
    rw [Backend.uniqueObject]
    split
    · exact error _
    · exact ih _

mutual

theorem hooks (value : Json) : RaisesValueError (Backend.hooks value) := by
  match value with
  | .constant name => exact error _
  | .arr items => exact itemHooks items
  | .obj members =>
    refine (memberHooks members).bind fun _ => ?_
    intro message h
    have hraise := uniqueObject members []
    cases hu : Backend.uniqueObject members with
    | error e =>
      rw [hu] at h hraise
      exact hraise message (congrArg Except.error (Except.error.inj h))
    | ok data =>
      rw [hu] at h
      cases h
  | .null | .bool _ | .int _ | .float _ | .str _ => exact ok ()

theorem itemHooks (items : List Json) : RaisesValueError (Backend.itemHooks items) := by
  match items with
  | [] => exact ok ()
  | value :: rest => exact (hooks value).bind fun _ => itemHooks rest

theorem memberHooks (members : List (String × Json)) :
    RaisesValueError (Backend.memberHooks members) := by
  match members with
  | [] => exact ok ()
  | (_, value) :: rest => exact (hooks value).bind fun _ => memberHooks rest

end

theorem jsonObject (loads : Loads) (payload : Payload) (limit : Nat) :
    RaisesValueError (Backend.jsonObject loads payload limit) := by
  refine (require _ _).bind fun _ => ?_
  cases loads payload with
  | none => exact error _
  | some tree =>
    refine (hooks tree).bind fun _ => ?_
    cases tree with
    | obj data => exact ok data
    | _ => exact error _

/-- `parse_event` raises nothing but `ValueError`. -/
theorem parseEvent (loads : Loads) (topic : String) (payload : Payload) :
    RaisesValueError (Backend.parseEvent loads topic payload) := by
  refine (jsonObject loads payload _).bind fun data => (require _ _).bind fun _ => ?_
  refine (deviceId _).bind fun station => (eventTopic station).bind fun expected => ?_
  refine (require _ _).bind fun _ => (inputKind _).bind fun kind => ?_
  refine (integer _ _ _ _).bind fun _ => (integer _ _ _ _).bind fun _ => ?_
  refine (integer _ _ _ _).bind fun _ => (integer _ _ _ _).bind fun _ => ?_
  exact (firmwareVersion _).bind fun _ => ok _

end RaisesValueError

/-! ## Commands -/

/-- The object of a command. -/
def Command.object (command : Command) (on : Bool) : List (String × Json) :=
  [("command", .str command.name), ("value", .bool on)]

theorem dumpsCommand_objectText (command : Command) (on : Bool) :
    Json.ObjectText (command.object on) (dumpsCommand command on).toList := by
  refine Json.objectText_of_print ?_
  cases command <;> cases on <;> decide

theorem parseCommand_dumps {loads : Loads} (hl : loads.Standard) (command : Command) (on : Bool)
    {payload : Payload} (hp : payload.Carries (dumpsCommand command on)) :
    parseCommand loads payload = .ok (command, on) := by
  have htext := dumpsCommand_objectText command on
  have hlen : payload.len ≤ 512 := by
    refine Nat.le_trans hp.len_le ?_
    cases command <;> cases on <;> decide
  have hdata := jsonObject_members hl htext (by cases command <;> cases on <;> decide) hp
    (by decide) hlen
  have hfields : hasFields (command.object on) ["command", "value"] = true := by
    simp [hasFields, Command.object]
  have hname : commandName (item (command.object on) "command") = .ok command := by
    cases command <;> rfl
  have hvalue : commandValue (item (command.object on) "value") = .ok on := rfl
  exact parseCommand_ok.mpr ⟨_, hdata, hfields, hname, hvalue⟩

/-- A command for a valid station can be made, and is what it is meant to
be. -/
theorem makeCommand_valid {loads : Loads} (hl : loads.Standard) {station : String}
    (hs : isDeviceId station = true) (on : Bool) (command : Command) :
    makeCommand loads station on command =
      .ok (commandTopicOf station, dumpsCommand command on) := by
  have hcarries : Payload.Carries (.str (dumpsCommand command on)) (dumpsCommand command on) :=
    .inl rfl
  have hparse := parseCommand_dumps hl command on hcarries
  simp only [makeCommand, hparse, commandTopic_valid hs, bind, Except.bind, discard,
    Functor.discard, Functor.mapConst, Except.map, Function.comp, pure, Except.pure,
    Function.const]

end KaizenStation.Backend
