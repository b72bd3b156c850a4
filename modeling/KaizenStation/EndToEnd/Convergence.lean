/-
KaizenStation.EndToEnd.Convergence — the ERP record and the station agree.

The payloads MQTT accepted reach the middleware in order, each possibly
several times in a row (`Delivered`). A `Mirror` is a field of the record that
follows an input of the station. It is the last value accepted for the input
(`Mirror.received`), and on the station's side the state manager has either
that value too, or one that the single waiting event of the input carries
(`Input.newest`). Together they are `erp_converges`.
-/
import KaizenStation.Foundation.Stutter
import KaizenStation.Firmware.SourceTheorems
import KaizenStation.EndToEnd.Wire
import KaizenStation.Backend.ServiceTheorems

namespace KaizenStation.EndToEnd

open KaizenStation.Foundation KaizenStation.Firmware KaizenStation.Backend

/-! ## Delivery -/

/-- A message on the station's event topic with this payload, as `bytes` or
`str`, whenever it comes. -/
structure Carried (p : Platform) (text : String) (message : Message) : Prop where
  topic : message.topic = Application.eventTopic p
  payload : message.payload.Carries text

/-- The messages are the accepted payloads in order, with immediate
repetitions. -/
def Delivered (p : Platform) (payloads : List String) (messages : List Message) : Prop :=
  ∃ texts, Stutter payloads texts ∧ List.Forall₂ (Carried p) texts messages

/-! ## Fields that follow an input -/

/-- A field of the record, and what a received event says of it: the same, up
to `convert`, as the event of the station says of the input. -/
structure Mirror {γ : Type} (i : Input γ) (δ : Type) where
  get : Workstation → δ
  value? : StationEvent → Option δ
  convert : γ → δ
  writes : Writes get Workstation.apply (fun x => value? x.1)
  agrees : ∀ (config : DeviceConfig) (event : Event) (received : StationEvent), event.Wired →
    stationEvent config event = some received → value? received = (i.value? event).map convert
  initial : get {} = convert (i.get {})

namespace Mirror

/-- The field, as the middleware keeps it for a station. -/
def field {γ δ : Type} {i : Input γ} (mirror : Mirror i δ) (station : String)
    (m : Middleware) : δ :=
  mirror.get (m.adapter.record station)

def buttonPressed : Mirror Input.button Bool where
  get := Workstation.buttonPressed
  value? := StationEvent.button?
  convert := id
  writes := Workstation.writes_buttonPressed
  agrees := by
    intro config event received hwired h
    obtain ⟨kind, hkind, rfl⟩ := Option.map_eq_some_iff.mp h
    have h1 : (1 : Int32).toInt = 1 := by decide
    have h0 : (0 : Int32).toInt = 0 := by decide
    rcases hwired with hrep | ⟨htype, -⟩
    · unfold Event.Reported at hrep
      cases ht : event.type <;> simp_all [inputKind?, Input.button, Event.button?] <;>
        subst hkind <;> simp_all [StationEvent.button?]
    · cases ht : event.type <;> simp_all [inputKind?, Input.button, Event.button?,
        EventType.isReport] <;> subst hkind <;> rfl
  initial := rfl

def taskDone : Mirror Input.toggle Bool where
  get := Workstation.taskDone
  value? := StationEvent.toggle?
  convert := id
  writes := Workstation.writes_taskDone
  agrees := by
    intro config event received hwired h
    obtain ⟨kind, hkind, rfl⟩ := Option.map_eq_some_iff.mp h
    rcases hwired with hrep | ⟨htype, -⟩
    · unfold Event.Reported at hrep
      cases ht : event.type <;> simp_all [inputKind?, Input.toggle, Event.toggle?] <;>
        subst hkind <;> simp_all [StationEvent.toggle?]
      rcases hrep.2 with hv | hv <;> rw [hv] <;> decide
    · cases ht : event.type <;> simp_all [inputKind?, Input.toggle, Event.toggle?,
        EventType.isReport] <;> subst hkind <;> rfl
  initial := rfl

def targetCount : Mirror Input.encoder Int where
  get := Workstation.targetCount
  value? := StationEvent.encoder?
  convert := Int32.toInt
  writes := Workstation.writes_targetCount
  agrees := by
    intro config event received _ h
    obtain ⟨kind, hkind, rfl⟩ := Option.map_eq_some_iff.mp h
    cases ht : event.type <;> simp_all [inputKind?, Input.encoder, Event.encoder?] <;>
      subst hkind <;> rfl
  initial := rfl

def progressPercent : Mirror Input.analog Int where
  get := Workstation.progressPercent
  value? := StationEvent.analog?
  convert := Int32.toInt
  writes := Workstation.writes_progressPercent
  agrees := by
    intro config event received _ h
    obtain ⟨kind, hkind, rfl⟩ := Option.map_eq_some_iff.mp h
    cases ht : event.type <;> simp_all [inputKind?, Input.analog, Event.analog?] <;>
      subst hkind <;> rfl
  initial := rfl

end Mirror

/-! ## One message -/

section Messages

variable {p : Platform} (hc : p.cjson.Standard) {loads : Loads} (hl : loads.Standard)
  (hcfg : ValidConfig p.config)

include hc hl hcfg

/-- A produced event is read back, unless it is a heartbeat whose value the
backend does not take. -/
theorem parse_produced {event : Event} (h : event.Produced)
    (hpub : Application.shouldPublish event = true) (ht : event.timestampMs.toNat < 10 ^ 15)
    {payload : Payload} (hp : payload.Carries (p.text event)) :
    (∃ received, stationEvent p.config event = some received ∧
      parseEvent loads (Application.eventTopic p) payload = .ok received) ∨
    event.Foreign ∧ ∃ error,
      parseEvent loads (Application.eventTopic p) payload = .error error := by
  rcases h.wired with hrep | hfor
  · left
    obtain ⟨kind, hkind⟩ := outgoing_fits (.inl hrep)
    obtain ⟨received, hrec, -, hfits⟩ := hkind.received p.config
    exact ⟨received, hrec, parse_serialized hc hl hcfg ht hrec hfits hp⟩
  · have hbeat : event.type = .heartbeat := by
      have htype := hfor.type
      have hfault := h.noFault
      have hsync := h.noSync
      unfold Application.shouldPublish at hpub
      cases hk : event.type <;> simp_all [EventType.isReport]
    obtain ⟨received, hrec⟩ := Option.isSome_iff_exists.mp
      (show (stationEvent p.config event).isSome = true by
        rw [stationEvent, Option.isSome_map, inputKind?_isSome, hpub])
    have hsource : received.sourceId = (INPUTS received.eventType).1 := by
      unfold stationEvent at hrec
      rw [hbeat, hfor.source] at hrec
      cases hrec
      rfl
    have hparse := parse_text hc hl hcfg ht hrec hsource hp
    cases hv : integer (.int received.value) "value" (INPUTS received.eventType).2.1
        (INPUTS received.eventType).2.2 with
    | ok v => exact .inl ⟨received, hrec, by rw [hparse, hv]; rfl⟩
    | error e => exact .inr ⟨hfor, e, by rw [hparse, hv]; rfl⟩

/-- A mirrored field after a message is what the message says of the input. -/
theorem Mirror.handleMessage {γ δ : Type} {i : Input γ} (mirror : Mirror i δ)
    (answers : Nat → Bool) (m : Middleware) {event : Event} (h : event.Produced)
    (hpub : Application.shouldPublish event = true) (ht : event.timestampMs.toNat < 10 ^ 15)
    {message : Message} (hm : Carried p (p.text event) message) :
    mirror.field p.config.deviceId.text (m.handleMessage loads answers message).1 =
      ((i.value? event).map mirror.convert).getD (mirror.field p.config.deviceId.text m) := by
  unfold Mirror.field
  have hparsed := parse_produced hc hl hcfg h hpub ht hm.payload
  rw [← hm.topic] at hparsed
  rcases hparsed with ⟨received, hrec, hparse⟩ | ⟨hfor, e, hparse⟩
  · have hrecord := Middleware.handleMessage_record answers (m := m) hparse
    rw [stationEvent_deviceId hrec] at hrecord
    have hvalue := mirror.agrees p.config event received h.wired hrec
    rw [hrecord, mirror.writes, ← hvalue]
  · rw [Middleware.handleMessage_adapter, hparse, i.value?_foreign hfor]
    rfl

/-! ## Every message -/

/-- A mirrored field is the last value that was delivered for the input. -/
theorem Mirror.received {γ δ : Type} {i : Input γ} (mirror : Mirror i δ) (answers : Nat → Bool)
    {accepted : List Event}
    (haccepted : ∀ e ∈ accepted, (e.Produced ∧ e.timestampMs.toNat < 10 ^ 15) ∧
      Application.shouldPublish e = true) {messages : List Message}
    (hdel : Delivered p (accepted.map p.text) messages) :
    mirror.field p.config.deviceId.text (({} : Middleware).handleAll loads answers messages) =
      mirror.convert ((lastWrite i.value? accepted).getD (i.get {})) := by
  obtain ⟨texts, hstutter, hcarried⟩ := hdel
  obtain ⟨repeated, hrepeated, rfl⟩ := hstutter.of_map
  have hstep : ∀ (m : Middleware) (message : Message) (e : Event),
      e ∈ accepted ∧ Carried p (p.text e) message →
      mirror.field p.config.deviceId.text (m.handleMessage loads answers message).1 =
        ((i.value? e).map mirror.convert).getD (mirror.field p.config.deviceId.text m) := by
    intro m message e he
    obtain ⟨⟨hprod, ht⟩, hpub⟩ := haccepted e he.1
    exact mirror.handleMessage hc hl hcfg answers m hprod hpub ht he.2
  have hevents : List.Forall₂ (fun e message => e ∈ accepted ∧ Carried p (p.text e) message)
      repeated messages := by
    rw [List.forall₂_map_left_iff] at hcarried
    rw [List.forall₂_and_left]
    exact ⟨fun e he => hrepeated.mem he, hcarried⟩
  have hfold := foldl_forall₂ hstep hevents {}
  rw [hrepeated.lastWrite, lastWrite_map] at hfold
  rw [Middleware.handleAll, hfold]
  cases lastWrite i.value? accepted with
  | none => exact mirror.initial
  | some v => rfl

end Messages

/-! ## The value that waits -/

theorem value_of_button? {event : Event} (h : event.Wired) {pressed : Bool}
    (hv : event.button? = some pressed) : event.value = if pressed then 1 else 0 := by
  rcases h with hrep | hfor
  · unfold Event.Reported at hrep
    cases ht : event.type <;> simp_all [Event.button?]
  · have htype := hfor.type
    cases ht : event.type <;> simp_all [Event.button?, EventType.isReport]

theorem value_of_toggle? {event : Event} (h : event.Wired) {on : Bool}
    (hv : event.toggle? = some on) : event.value = if on then 1 else 0 := by
  rcases h with hrep | hfor
  · unfold Event.Reported at hrep
    cases ht : event.type <;> simp_all [Event.toggle?]
    subst hv
    rcases hrep.2 with h | h <;> rw [h] <;> rfl
  · have htype := hfor.type
    cases ht : event.type <;> simp_all [Event.toggle?, EventType.isReport]

theorem value_of_encoder? {event : Event} {count : Int32} (hv : event.encoder? = some count) :
    event.value = count := by
  cases ht : event.type <;> simp_all [Event.encoder?]

theorem value_of_analog? {event : Event} {percent : Int32} (hv : event.analog? = some percent) :
    event.value = percent := by
  cases ht : event.type <;> simp_all [Event.analog?]

/-! ## Convergence -/

section Runs

variable (p : Platform) (hc : p.cjson.Standard) (loads : Loads) (hl : loads.Standard)
  (hcfg : ValidConfig p.config) (halloc : ∀ k, (p.env k).allocated = true) (capacity : Nat)
  (hcap : 4 ≤ capacity) (led : LedDriver) (events : List Event)
  (hevents : ∀ e ∈ events, e.Produced ∧ e.timestampMs.toNat < 10 ^ 15) (answers : Nat → Bool)

include hc hl hcfg halloc hcap hevents

open Application

/-- A mirrored field of an input with nothing in the store is the state
manager's. -/
theorem Mirror.converges {γ δ : Type} {i : Input γ} (mirror : Mirror i δ) (messages : List Message)
    (hdel : Delivered p ((boot (OfflineEventStore.create capacity) led).process p events).payloads
      messages)
    (hnone : ∀ e ∈ ((boot (OfflineEventStore.create capacity) led).process p
      events).offlineStore.events, e.sourceId ≠ i.source) :
    mirror.field p.config.deviceId.text (({} : Middleware).handleAll loads answers messages) =
      mirror.convert
        (i.get ((boot (OfflineEventStore.create capacity) led).process p events).stateManager) := by
  have hfed := process_fed p capacity led hevents
  rw [hfed.ready.payloads] at hdel
  rw [(i.newest hc halloc hcap led hevents).1 hnone]
  refine mirror.received hc hl hcfg answers (fun e he => ?_) hdel
  have hissued := hfed.sound.inOrder.subset (List.mem_append_left _ (List.mem_append_left _ he))
  exact ⟨hfed.issued e hissued, hfed.published e hissued⟩

/-- After any run of the station and every delivery of the payloads MQTT
accepted, each field of the ERP's record is what the state manager has, unless
an event of its source is in the store; then that is the only one of its
source there, and has the state manager's value. -/
theorem erp_converges (messages : List Message)
    (hdel : Delivered p ((boot (OfflineEventStore.create capacity) led).process p events).payloads
      messages) :
    let a := (boot (OfflineEventStore.create capacity) led).process p events
    let record := (({} : Middleware).handleAll loads answers messages).adapter.record
      p.config.deviceId.text
    ((∀ e ∈ a.offlineStore.events, e.sourceId ≠ 1) →
      record.buttonPressed = a.stateManager.buttonState) ∧
    ((∀ e ∈ a.offlineStore.events, e.sourceId ≠ 2) →
      record.taskDone = a.stateManager.toggleState) ∧
    ((∀ e ∈ a.offlineStore.events, e.sourceId ≠ 3) →
      record.targetCount = a.stateManager.encoderValue.toInt) ∧
    ((∀ e ∈ a.offlineStore.events, e.sourceId ≠ 4) →
      record.progressPercent = a.stateManager.analogValue.toInt) ∧
    ∀ e ∈ a.offlineStore.events,
      (e.sourceId ≠ 0 → a.offlineStore.events.filter (·.sourceId = e.sourceId) = [e]) ∧
      (e.sourceId = 1 → e.value = if a.stateManager.buttonState then 1 else 0) ∧
      (e.sourceId = 2 → e.value = if a.stateManager.toggleState then 1 else 0) ∧
      (e.sourceId = 3 → e.value = a.stateManager.encoderValue) ∧
      (e.sourceId = 4 → e.value = a.stateManager.analogValue) := by
  intro a record
  have hfed := process_fed p capacity led hevents
  refine ⟨?_, ?_, ?_, ?_, ?_⟩
  · exact Mirror.buttonPressed.converges p hc loads hl hcfg halloc capacity hcap led events hevents
      answers messages hdel
  · exact Mirror.taskDone.converges p hc loads hl hcfg halloc capacity hcap led events hevents
      answers messages hdel
  · exact Mirror.targetCount.converges p hc loads hl hcfg halloc capacity hcap led events hevents
      answers messages hdel
  · exact Mirror.progressPercent.converges p hc loads hl hcfg halloc capacity hcap led events
      hevents answers messages hdel
  · intro e he
    have hwired : e.Wired := (hfed.issued e (hfed.sound.inOrder.subset
      (List.mem_append_left _ (List.mem_append_right _ he)))).1.wired
    refine ⟨?_, ?_, ?_, ?_, ?_⟩
    · intro hsource
      exact hfed.ready.wellFormed.filter_source hsource he
    · intro hsource
      exact value_of_button? hwired
        ((Input.button.newest hc halloc hcap led hevents).2 e he hsource)
    · intro hsource
      exact value_of_toggle? hwired
        ((Input.toggle.newest hc halloc hcap led hevents).2 e he hsource)
    · intro hsource
      exact value_of_encoder? ((Input.encoder.newest hc halloc hcap led hevents).2 e he hsource)
    · intro hsource
      exact value_of_analog? ((Input.analog.newest hc halloc hcap led hevents).2 e he hsource)

end Runs

/-! ## An outage -/

/-- The broker is reached from the third question on. -/
def recovering : Platform where
  config := defaultConfig
  cjson := CJson.reference
  env := fun k => { connected := decide (2 ≤ k), allocated := true, accepted := true }

/-- Two steps of the knob and a press. -/
def knobAndPress : List Event := [
  { type := .encoderChanged, sourceId := 3, value := 1 },
  { type := .encoderChanged, sourceId := 3, value := 2 },
  { type := .buttonPressed, sourceId := 1, value := 1 }]

/-- Every payload comes twice. -/
def twice (payloads : List String) : List Message :=
  payloads.flatMap fun text => List.replicate 2
    { topic := Application.eventTopic recovering
      payload := .bytes text.toUTF8
      receivedAtNs := none
      timeNs := 5 }

theorem delivered_twice (payloads : List String) :
    Delivered recovering payloads (twice payloads) := by
  induction payloads with
  | nil => exact ⟨[], .nil, .nil⟩
  | cons text payloads ih =>
    obtain ⟨texts, hstutter, hcarried⟩ := ih
    exact ⟨_, .cons text 1 hstutter, .cons ⟨rfl, .inr rfl⟩ (.cons ⟨rfl, .inr rfl⟩ hcarried)⟩

/-- The first step is superseded in the store; the ERP has both inputs. -/
theorem erp_converges_recovering :
    let a := (Application.boot (OfflineEventStore.create 4) {}).process recovering knobAndPress
    let record := (({} : Middleware).handleAll Loads.reference (fun _ => true)
      (twice a.payloads)).adapter.record "station_01"
    record.targetCount = 2 ∧ record.buttonPressed = true := by
  intro a record
  have hevents : ∀ e ∈ knobAndPress, e.Produced ∧ e.timestampMs.toNat < 10 ^ 15 := by
    intro e he
    simp only [knobAndPress, List.mem_cons, List.not_mem_nil, or_false] at he
    rcases he with rfl | rfl | rfl
    · exact ⟨⟨.inl rfl, by decide, by decide⟩, by decide⟩
    · exact ⟨⟨.inl rfl, by decide, by decide⟩, by decide⟩
    · exact ⟨⟨.inl ⟨rfl, rfl⟩, by decide, by decide⟩, by decide⟩
  have hstate : a.stateManager.encoderValue.toInt = 2 ∧ a.stateManager.buttonState = true ∧
      a.offlineStore.events = [] := by decide +kernel
  obtain ⟨hcount, hpressed, hempty⟩ := hstate
  obtain ⟨hbutton, -, hencoder, -⟩ := erp_converges recovering CJson.reference_standard
    Loads.reference Loads.reference_standard defaultConfig_valid (fun _ => rfl) 4 (Nat.le_refl 4) {}
    knobAndPress hevents (fun _ => true) (twice a.payloads) (delivered_twice _)
  rw [hempty] at hbutton hencoder
  exact ⟨(hencoder (by simp)).trans hcount, (hbutton (by simp)).trans hpressed⟩

end KaizenStation.EndToEnd
