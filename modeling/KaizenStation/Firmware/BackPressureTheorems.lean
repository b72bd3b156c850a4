/-
KaizenStation.Firmware.BackPressureTheorems — what a full event queue can
and cannot lose of the inputs.

A report of the button, the toggle or the analog input is either queued or
offered again, so their drivers and the state manager cannot drift apart
(`inputs_survive_full_queue`). The encoder offers a count once: it agrees
with the state manager as long as the last edge was counted by a poll that
found room (`encoder_with_room_converges`), and otherwise a later poll does
not make up for it (`encoder_stale_after_full_queue`).
-/
import KaizenStation.Firmware.DeliveryTheorems
import KaizenStation.Firmware.StationTheorems

namespace KaizenStation.Firmware

open KaizenStation.Foundation

namespace Station

/-- The newest event of a source in the queue. -/
def newestQueued (s : Station) (sourceId : UInt32) : Option Event :=
  (s.eventQueue.items.filter (fun e => e.sourceId = sourceId)).getLast?

theorem mem_of_newestQueued {s : Station} {sourceId : UInt32} {event : Event}
    (h : s.newestQueued sourceId = some event) :
    event ∈ s.eventQueue.items ∧ event.sourceId = sourceId := by
  have hmem := List.mem_filter.mp (List.mem_of_getLast? h)
  exact ⟨hmem.1, of_decide_eq_true hmem.2⟩

theorem newestQueued_nil {s : Station} (h : s.eventQueue.items = []) (sourceId : UInt32) :
    s.newestQueued sourceId = none := by
  simp [newestQueued, h]

/-- The settled value of an input is that of its newest queued event. -/
theorem settled_field {s : Station} {γ : Type} {get : StateManager → γ} {value? : Event → Option γ}
    (hw : Writes get StateManager.handleEvent value?) {sourceId : UInt32}
    (hval : ∀ e ∈ s.eventQueue.items, (value? e).isSome = true ↔ e.sourceId = sourceId) :
    get s.settled =
      ((s.newestQueued sourceId).bind value?).getD (get s.application.stateManager) := by
  rw [settled, hw.foldl, lastWrite_marked (fun e => e.sourceId = sourceId), newestQueued]
  intro e he
  rw [hval e he, decide_eq_true_iff]

/-! ## Inputs that are offered again -/

/-- The report of a digital driver for a state. -/
def DigitalReport (d : DigitalInput) (state : Bool) (event : Event) : Prop :=
  event.type = (if state then d.activeEvent else d.inactiveEvent) ∧
    event.value = (if state then 1 else 0)

/-- The newest queued report is the button's state, and without one the state
manager has it. -/
theorem button_survives {p : Platform} {mutex : Bool} {s : Station} (h : Tracks p mutex s)
    (hfirst : s.buttonInput.initialEventPending = false) :
    match s.newestQueued s.buttonInput.sourceId with
    | some event => DigitalReport s.buttonInput s.buttonInput.state event
    | none => s.application.stateManager.buttonState = s.buttonInput.state := by
  have hfield := settled_field (s := s) StateManager.writes_buttonState
    (fun e he => (h.wired.queued e he).button?)
  rw [h.agrees.button hfirst] at hfield
  rw [h.wired.button.sourceId]
  show match s.newestQueued 1 with | some _ => _ | none => _
  cases hq : s.newestQueued 1 with
  | none => simpa [hq] using hfield.symm
  | some event =>
    obtain ⟨hmem, hsource⟩ := mem_of_newestQueued hq
    rw [hq] at hfield
    unfold DigitalReport
    rw [h.wired.button.activeEvent, h.wired.button.inactiveEvent]
    rcases h.wired.queued event hmem with hrep | hfor
    · unfold Event.Reported at hrep
      cases ht : event.type <;> simp_all [Event.button?, buttonInput₀, DigitalInput.create]
    · exact absurd (hfor.source.symm.trans hsource) (by decide)

theorem toggle_survives {p : Platform} {mutex : Bool} {s : Station} (h : Tracks p mutex s)
    (hfirst : s.toggleInput.initialEventPending = false) :
    match s.newestQueued s.toggleInput.sourceId with
    | some event => DigitalReport s.toggleInput s.toggleInput.state event
    | none => s.application.stateManager.toggleState = s.toggleInput.state := by
  have hfield := settled_field (s := s) StateManager.writes_toggleState
    (fun e he => (h.wired.queued e he).toggle?)
  rw [h.agrees.toggle hfirst] at hfield
  rw [h.wired.toggle.sourceId]
  show match s.newestQueued 2 with | some _ => _ | none => _
  cases hq : s.newestQueued 2 with
  | none => simpa [hq] using hfield.symm
  | some event =>
    obtain ⟨hmem, hsource⟩ := mem_of_newestQueued hq
    rw [hq] at hfield
    unfold DigitalReport
    rw [h.wired.toggle.activeEvent, h.wired.toggle.inactiveEvent]
    rcases h.wired.queued event hmem with hrep | hfor
    · unfold Event.Reported at hrep
      cases ht : event.type <;> simp_all [Event.toggle?, toggleInput₀, DigitalInput.create]
      rcases hrep with hv | hv <;> simp [hv]
    · exact absurd (hfor.source.symm.trans hsource) (by decide)

theorem analog_survives {p : Platform} {mutex : Bool} {s : Station} (h : Tracks p mutex s)
    (hfirst : s.analogInput.initialEventPending = false) :
    match s.newestQueued s.analogInput.sourceId with
    | some event => event.type = .analogChanged ∧ event.value = s.analogInput.valuePercent
    | none => s.application.stateManager.analogValue = s.analogInput.valuePercent := by
  have hfield := settled_field (s := s) StateManager.writes_analogValue
    (fun e he => (h.wired.queued e he).analog?)
  rw [h.agrees.analog hfirst] at hfield
  rw [h.wired.analog]
  cases hq : s.newestQueued 4 with
  | none => simpa [hq] using hfield.symm
  | some event =>
    obtain ⟨hmem, hsource⟩ := mem_of_newestQueued hq
    rw [hq] at hfield
    rcases h.wired.queued event hmem with hrep | hfor
    · unfold Event.Reported at hrep
      cases ht : event.type <;> simp_all [Event.analog?]
    · exact absurd (hfor.source.symm.trans hsource) (by decide)

/-- Once a driver's first report is queued, its newest queued report is what
the driver reports; with none queued, the state manager has that value. No
number of refused sends changes this. -/
theorem inputs_survive_full_queue (p : Platform) (r : Readings) (mutex : Bool) (acts : List Act)
    (hacts : ∀ act ∈ acts, act.Foreign) :
    let s := (boot r mutex).run p acts
    ((s.buttonInput.initialEventPending = false →
        match s.newestQueued s.buttonInput.sourceId with
        | some event => DigitalReport s.buttonInput s.buttonInput.state event
        | none => s.application.stateManager.buttonState = s.buttonInput.state) ∧
      (s.toggleInput.initialEventPending = false →
        match s.newestQueued s.toggleInput.sourceId with
        | some event => DigitalReport s.toggleInput s.toggleInput.state event
        | none => s.application.stateManager.toggleState = s.toggleInput.state) ∧
      (s.analogInput.initialEventPending = false →
        match s.newestQueued s.analogInput.sourceId with
        | some event => event.type = .analogChanged ∧ event.value = s.analogInput.valuePercent
        | none => s.application.stateManager.analogValue = s.analogInput.valuePercent)) ∧
    (s.eventQueue.items = [] →
      (s.buttonInput.initialEventPending = false →
        s.application.stateManager.buttonState = s.buttonInput.state) ∧
      (s.toggleInput.initialEventPending = false →
        s.application.stateManager.toggleState = s.toggleInput.state) ∧
      (s.analogInput.initialEventPending = false →
        s.application.stateManager.analogValue = s.analogInput.valuePercent)) := by
  intro s
  have h : Tracks p mutex s := (boot_tracks p r mutex).run hacts
  refine ⟨⟨button_survives h, toggle_survives h, analog_survives h⟩, ?_⟩
  intro hempty
  have hnone := newestQueued_nil hempty
  refine ⟨?_, ?_, ?_⟩ <;> intro hfirst
  · simpa [hnone] using button_survives h hfirst
  · simpa [hnone] using toggle_survives h hfirst
  · simpa [hnone] using analog_survives h hfirst

/-- What the Wi-Fi manager posts on a connection. -/
def wifiUp : Event := { type := .wifiConnected }

/-- The button is pressed while the queue is full, held until there is room,
and the queue is then processed. -/
def pressUnderLoad : List Act :=
  List.replicate EVENT_QUEUE_SIZE (.post wifiUp) ++
    [.pollButton 0 100, .wait 200, .pollButton 0 200, .central 0, .pollButton 0 200] ++
    List.replicate (3 * EVENT_QUEUE_SIZE) (.central 0)

theorem pressUnderLoad_foreign : ∀ act ∈ pressUnderLoad, act.Foreign := by
  intro act hact
  simp only [pressUnderLoad, List.mem_append, List.mem_replicate, List.mem_cons,
    List.not_mem_nil, or_false] at hact
  rcases hact with (⟨-, rfl⟩ | rfl | rfl | rfl | rfl | rfl) | ⟨-, rfl⟩
  · exact ⟨rfl, rfl⟩
  all_goals trivial

theorem inputs_survive_full_queue_press :
    ((boot {}).run Platform.offline pressUnderLoad).application.stateManager.buttonState =
      ((boot {}).run Platform.offline pressUnderLoad).buttonInput.state :=
  ((inputs_survive_full_queue Platform.offline {} true pressUnderLoad pressUnderLoad_foreign).2
    (by decide +kernel)).1 (by decide +kernel)

/-! ## The encoder, which offers a count once -/

/-- If the queue had room at the poll that counted the last edge, the state
manager has the count as soon as no count is queued. -/
theorem encoder_with_room_converges (p : Platform) (r : Readings) (mutex : Bool)
    (acts : List Act) (hacts : ∀ act ∈ acts, act.Foreign) :
    let s := (boot r mutex).run p acts
    (∀ poll, s.lastCounted = some poll → poll.room = true) →
      (∀ e ∈ s.eventQueue.items, e.type ≠ .encoderChanged) →
      s.application.stateManager.encoderValue = s.rotaryEncoder.count := by
  intro s hroom hnone
  have h : Tracks p mutex s := (boot_tracks p r mutex).run hacts
  have hfield := settled_field (s := s) StateManager.writes_encoderValue
    (fun e he => (h.wired.queued e he).encoder?)
  rw [h.agrees.encoder hroom] at hfield
  cases hq : s.newestQueued 3 with
  | none => simpa [hq] using hfield.symm
  | some event =>
    obtain ⟨hmem, hsource⟩ := mem_of_newestQueued hq
    rcases h.wired.queued event hmem with hrep | hfor
    · have htype := hnone event hmem
      unfold Event.Reported at hrep
      cases ht : event.type <;> simp_all
    · exact absurd (hfor.source.symm.trans hsource) (by decide)

/-- The knob turns one step while the queue is full, is polled again when
there is room, and the queue is then processed. -/
def turnUnderLoad : List Act :=
  List.replicate EVENT_QUEUE_SIZE (.post wifiUp) ++
    [.pollEncoder 0 1, .central 0, .pollEncoder 0 1] ++
    List.replicate (3 * EVENT_QUEUE_SIZE) (.central 0)

/-- The count whose send was refused is not offered again by the later poll
that finds room. -/
theorem encoder_stale_after_full_queue :
    let s := (boot {}).run Platform.offline turnUnderLoad
    s.polls = [⟨true, false, 1⟩, ⟨false, true, 1⟩] ∧ s.eventQueue.items = [] ∧
      s.rotaryEncoder.count = 1 ∧ s.application.stateManager.encoderValue = 0 := by
  decide +kernel

/-- One step of the knob, reported and processed. -/
def turnWithRoom : List Act := [.pollEncoder 0 1, .central 0]

theorem encoder_with_room_converges_turn :
    ((boot {}).run Platform.offline turnWithRoom).application.stateManager.encoderValue =
      ((boot {}).run Platform.offline turnWithRoom).rotaryEncoder.count := by
  refine encoder_with_room_converges Platform.offline {} true turnWithRoom ?_ ?_ ?_
  · intro act hact
    simp only [turnWithRoom, List.mem_cons, List.not_mem_nil, or_false] at hact
    rcases hact with rfl | rfl <;> trivial
  · intro poll hpoll
    have hlast : ((boot {}).run Platform.offline turnWithRoom).lastCounted =
        some ⟨true, true, 1⟩ := by decide +kernel
    rw [hlast] at hpoll
    cases hpoll
    rfl
  · decide +kernel

end Station

end KaizenStation.Firmware
