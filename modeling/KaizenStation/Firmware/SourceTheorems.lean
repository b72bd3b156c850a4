/-
KaizenStation.Firmware.SourceTheorems — where the newest value of an input
is.

An `Input` is one of the four physical inputs: its source, the field of the
state manager it feeds, and the value an event gives it. If the drivers and
managers are the only producers and every source can have a place in the
store, then only a newer event of the same source ever takes an input's event
out of the line. The field of the state manager is then the last value MQTT
accepted for the input, or the value of the one event of it that waits
(`Input.newest`).
-/
import KaizenStation.Firmware.CapacityTheorems
import KaizenStation.Firmware.StateManagerTheorems

namespace KaizenStation.Firmware

open KaizenStation.Foundation

/-- An event as a driver, the Wi-Fi manager, the MQTT manager or the heartbeat
makes it. No part of the firmware makes a fault or a sync request. -/
structure Event.Produced (event : Event) : Prop where
  wired : event.Wired
  noFault : event.type ≠ .faultDetected
  noSync : event.type ≠ .syncRequested

/-! ## Inputs -/

structure Input (γ : Type) where
  source : UInt32
  get : StateManager → γ
  value? : Event → Option γ
  physical : source ≠ 0
  writes : Writes get StateManager.handleEvent value?
  ofSource : ∀ event : Event, event.Wired → ((value? event).isSome = true ↔ event.sourceId = source)
  unnumbered : ∀ (event : Event) (id : UInt32),
    value? { event with sequenceId := id } = value? event

namespace Input

def button : Input Bool where
  source := 1
  get := StateManager.buttonState
  value? := Event.button?
  physical := by decide
  writes := StateManager.writes_buttonState
  ofSource := fun _ h => h.button?
  unnumbered := fun _ _ => rfl

def toggle : Input Bool where
  source := 2
  get := StateManager.toggleState
  value? := Event.toggle?
  physical := by decide
  writes := StateManager.writes_toggleState
  ofSource := fun _ h => h.toggle?
  unnumbered := fun _ _ => rfl

def encoder : Input Int32 where
  source := 3
  get := StateManager.encoderValue
  value? := Event.encoder?
  physical := by decide
  writes := StateManager.writes_encoderValue
  ofSource := fun _ h => h.encoder?
  unnumbered := fun _ _ => rfl

def analog : Input Int32 where
  source := 4
  get := StateManager.analogValue
  value? := Event.analog?
  physical := by decide
  writes := StateManager.writes_analogValue
  ofSource := fun _ h => h.analog?
  unnumbered := fun _ _ => rfl

variable {γ : Type} (i : Input γ)

/-- An event that no driver made says nothing of an input. -/
theorem value?_foreign {event : Event} (h : event.Foreign) : i.value? event = none := by
  cases hv : i.value? event with
  | none => rfl
  | some v =>
    have hsource := (i.ofSource event (.inr h)).mp (by rw [hv]; rfl)
    exact absurd (hsource.symm.trans h.source) i.physical

/-- An event that is not published says nothing of an input. -/
theorem value?_local {event : Event} (h : event.Wired)
    (hpub : Application.shouldPublish event = false) : i.value? event = none := by
  rcases h with hrep | hfor
  · unfold Event.Reported at hrep
    unfold Application.shouldPublish at hpub
    cases ht : event.type <;> simp_all
  · exact i.value?_foreign hfor

end Input

namespace Application

variable {p : Platform} {capacity : Nat} {mutex : Bool}

/-! ## What is numbered -/

/-- A property that does not depend on the number passes from the events of a
run to the numbered ones. -/
theorem process_issued {a : Application} (hr : Ready p capacity mutex a) {P : Event → Prop}
    (hP : ∀ (e : Event) (id : UInt32), P e → P { e with sequenceId := id })
    (ha : ∀ e ∈ a.issued, P e) {events : List Event} (hevents : ∀ e ∈ events, P e) :
    ∀ e ∈ (a.process p events).issued, P e := by
  induction events generalizing a with
  | nil => exact ha
  | cons event events ih =>
    have hstep := processEvent_processed hr event
    refine ih hstep.ready (fun e he => ?_) fun e he => hevents e (List.mem_cons_of_mem _ he)
    have he : e ∈ (a.processEvent p event).issued := he
    rw [hstep.issued, List.mem_append] at he
    rcases he with he | he
    · exact ha e he
    · split at he
      · rw [List.mem_singleton.mp he]
        exact hP event _ (hevents event List.mem_cons_self)
      · cases he

/-- The state manager has the last value that was numbered. -/
theorem process_settles {γ : Type} (i : Input γ) {a : Application}
    (hr : Ready p capacity mutex a) {initial : γ}
    (h : i.get a.stateManager = (lastWrite i.value? a.issued).getD initial) {events : List Event}
    (hevents : ∀ e ∈ events, e.Wired) :
    i.get (a.process p events).stateManager =
      (lastWrite i.value? (a.process p events).issued).getD initial := by
  induction events generalizing a with
  | nil => exact h
  | cons event events ih =>
    have hstep := processEvent_processed hr event
    refine ih hstep.ready ?_ fun e he => hevents e (List.mem_cons_of_mem _ he)
    show i.get (a.processEvent p event).stateManager =
      (lastWrite i.value? (a.processEvent p event).issued).getD initial
    rw [hstep.stateManager, i.writes, hstep.issued, h]
    cases hpub : shouldPublish event with
    | true =>
      have hnum := i.unnumbered event a.nextSequenceId
      rw [if_pos rfl, lastWrite_append, lastWrite_cons, hnum]
      cases i.value? event <;> rfl
    | false =>
      rw [i.value?_local (hevents event List.mem_cons_self) hpub]
      simp

/-! ## What is lost -/

/-- The text of an event is not empty. -/
theorem serialized_nonempty {cjson : CJson} (hc : cjson.Standard) {event : Event}
    (ht : event.timestampMs.toNat < 10 ^ 15) (deviceId firmwareVersion : CString) :
    (MessageSerializer.serializeEvent cjson true event (some deviceId)
      (some firmwareVersion)).isEmpty = false := by
  obtain ⟨body, -, htext⟩ := MessageSerializer.serializeEvent_objectText hc ht deviceId
    firmwareVersion
  cases hempty : (MessageSerializer.serializeEvent cjson true event (some deviceId)
      (some firmwareVersion)).isEmpty with
  | false => rfl
  | true =>
    rw [String.isEmpty_iff.mp hempty] at htext
    cases htext

/-- A produced event that is published and is no heartbeat is a report of one
of the four inputs. -/
theorem produced_source {event : Event} (h : event.Produced)
    (hpub : shouldPublish event = true) (ht : event.type ≠ .heartbeat) :
    ∃ source ∈ [1, 2, 3, 4], Event.key event = some source := by
  obtain ⟨hwired, hfault, hsync⟩ := h
  have hkey : ∀ source : UInt32, source ≠ 0 → event.sourceId = source →
      Event.key event = some source := by
    intro source hne hs
    rw [Event.key_eq_some]
    exact ⟨hs, hne⟩
  rcases hwired with hrep | ⟨htype, -⟩
  · unfold Event.Reported at hrep
    cases hk : event.type <;> simp only [hk] at hrep
    · exact ⟨1, by simp, hkey 1 (by decide) hrep.1⟩
    · exact ⟨1, by simp, hkey 1 (by decide) hrep.1⟩
    · exact ⟨2, by simp, hkey 2 (by decide) hrep.1⟩
    · exact ⟨3, by simp, hkey 3 (by decide) hrep⟩
    · exact ⟨4, by simp, hkey 4 (by decide) hrep.1⟩
  · exfalso
    unfold shouldPublish at hpub
    cases hk : event.type <;> simp_all [EventType.isReport]

/-! ## Where the newest value is -/

/-- What the run of a station with its own producers keeps. -/
structure Fed (p : Platform) (capacity : Nat) (a : Application) : Prop where
  ready : Ready p capacity true a
  sound : Outbox.Sound (outboxPolicy capacity true) (a.outbox [])
  current : ∀ source, Outbox.Current (outboxPolicy capacity true) source (a.outbox [])
  issued : ∀ e ∈ a.issued, e.Produced ∧ e.timestampMs.toNat < 10 ^ 15
  published : ∀ e ∈ a.issued, shouldPublish e = true

theorem process_fed (p : Platform) (capacity : Nat) (led : LedDriver) {events : List Event}
    (hevents : ∀ e ∈ events, e.Produced ∧ e.timestampMs.toNat < 10 ^ 15) :
    Fed p capacity ((boot (OfflineEventStore.create capacity) led).process p events) := by
  have hr := boot_ready p capacity true led
  have hrun := boot_run p capacity true led (events.map .processEvent)
  have hcurrent : ∀ source, Outbox.Current (outboxPolicy capacity true) source
      ((boot (OfflineEventStore.create capacity) led).outbox []) := fun _ _ => rfl
  refine ⟨hrun.ready, hrun.sound, fun source => (hcurrent source).steps (run_ready hr _).2, ?_, ?_⟩
  · refine process_issued hr (P := fun e => e.Produced ∧ e.timestampMs.toNat < 10 ^ 15) ?_ ?_
      hevents
    · intro e id h
      have hwired : Event.Wired { e with sequenceId := id } :=
        h.1.wired.imp (fun h => h) (fun h => ⟨h.type, h.source⟩)
      exact ⟨⟨hwired, h.1.noFault, h.1.noSync⟩, h.2⟩
    · intro e he
      cases he
  · refine run_issued_publishable hr ?_ _
    intro e he
    cases he

/-- With a place for each input in the store and serialization that works,
only a newer event of the source displaces an input's event. -/
theorem Fed.onlySuperseded {a : Application} (h : Fed p capacity a) (hc : p.cjson.Standard)
    (halloc : ∀ k, (p.env k).allocated = true) (hcap : 4 ≤ capacity) (source : UInt32) :
    Outbox.OnlySuperseded (outboxPolicy capacity true) source (a.outbox []) := by
  have hfixed : ∀ e : Event, (outboxPolicy capacity true).volatile e = false →
      e.type ≠ .heartbeat := fun e he => of_decide_eq_false he
  refine h.sound.onlySuperseded rfl [1, 2, 3, 4] ?_ ?_ hcap ?_
  · intro e he
    obtain ⟨call, hmem⟩ := unserializable_of_dropped he
    have hempty : (p.payload call e).isEmpty = true := h.ready.honest _ hmem
    have hissued : e ∈ a.issued := h.sound.accounted.subset
      (List.mem_append_right _ (List.mem_map_of_mem he))
    rw [Platform.payload, halloc call, serialized_nonempty hc (h.issued e hissued).2] at hempty
    cases hempty
  · intro e he hv
    exact produced_source (h.issued e he).1 (h.published e he) (hfixed e hv)
  · intro e he hkey
    refine decide_eq_false fun ht => ?_
    have hsource := Event.key_eq_some.mp hkey
    rcases (h.issued e he).1.wired with hrep | hfor
    · unfold Event.Reported at hrep
      rw [ht] at hrep
      exact hrep
    · exact hsource.2 (hsource.1.symm.trans hfor.source)

/-- The newest numbered event of a source is the last in the line. -/
theorem Fed.newest {a : Application} (h : Fed p capacity a) (hc : p.cjson.Standard)
    (halloc : ∀ k, (p.env k).allocated = true) (hcap : 4 ≤ capacity) {source : UInt32}
    (hs : source ≠ 0) :
    ((a.accepted ++ a.offlineStore.events).filter (fun e => e.sourceId = source)).getLast? =
      (a.issued.filter (fun e => e.sourceId = source)).getLast? := by
  have hnew := h.current source (h.onlySuperseded hc halloc hcap source)
  have hfilter : ∀ l : List Event, Outbox.newest (outboxPolicy capacity true) source l =
      (l.filter (fun e => e.sourceId = source)).getLast? := by
    intro l
    unfold Outbox.newest
    congr 1
    refine List.filter_congr fun e _ => ?_
    show decide (Event.key e = some source) = decide (e.sourceId = source)
    simp [Event.key_eq_some, hs]
  rw [hfilter, hfilter] at hnew
  have hline : (a.outbox []).delivered ++ (a.outbox []).pending ++ (a.outbox []).hand =
      a.accepted ++ a.offlineStore.events := List.append_nil _
  rw [hline] at hnew
  exact hnew

end Application

open Application in
/-- With nothing of its source in the store, an input's field is the last
value that MQTT accepted for it; otherwise the waiting event has that
value. -/
theorem Input.newest {γ : Type} (i : Input γ) {p : Platform} (hc : p.cjson.Standard)
    (halloc : ∀ k, (p.env k).allocated = true) {capacity : Nat} (hcap : 4 ≤ capacity)
    (led : LedDriver) {events : List Event}
    (hevents : ∀ e ∈ events, e.Produced ∧ e.timestampMs.toNat < 10 ^ 15) :
    let a := (boot (OfflineEventStore.create capacity) led).process p events
    ((∀ e ∈ a.offlineStore.events, e.sourceId ≠ i.source) →
      i.get a.stateManager = (lastWrite i.value? a.accepted).getD (i.get {})) ∧
    ∀ e ∈ a.offlineStore.events, e.sourceId = i.source →
      i.value? e = some (i.get a.stateManager) := by
  intro a
  have h : Fed p capacity a := process_fed p capacity led hevents
  have hline : ∀ e ∈ a.accepted ++ a.offlineStore.events, e ∈ a.issued := by
    intro e he
    refine h.sound.inOrder.subset (List.mem_append_left _ ?_)
    exact he
  have hwired : ∀ e ∈ a.issued, e.Wired := fun e he => (h.issued e he).1.wired
  have hmark : ∀ {l : List Event}, (∀ e ∈ l, e ∈ a.issued) → lastWrite i.value? l =
      (l.filter (fun e => e.sourceId = i.source)).getLast?.bind i.value? := by
    intro l hl
    refine lastWrite_marked (fun e : Event => e.sourceId = i.source) fun e he => ?_
    rw [i.ofSource e (hwired e (hl e he)), decide_eq_true_iff]
  have hsettled : i.get a.stateManager = (lastWrite i.value? a.issued).getD (i.get {}) :=
    process_settles i (boot_ready p capacity true led) rfl fun e he => (hevents e he).1.wired
  have hnew := h.newest hc halloc hcap i.physical
  rw [hmark fun _ he => he, ← hnew] at hsettled
  constructor
  · intro hnone
    have hempty : a.offlineStore.events.filter (fun e => e.sourceId = i.source) = [] := by
      rw [List.filter_eq_nil_iff]
      exact fun e he => by simpa using hnone e he
    rw [hsettled, hmark fun e he => hline e (List.mem_append_left _ he), List.filter_append, hempty,
      List.append_nil]
  · intro e he hsource
    have hone := h.ready.wellFormed.filter_source (hsource ▸ i.physical) he
    rw [hsource] at hone
    have hsome : (i.value? e).isSome = true :=
      (i.ofSource e (hwired e (hline e (List.mem_append_right _ he)))).mpr hsource
    rw [List.filter_append, hone, List.getLast?_append] at hsettled
    cases hv : i.value? e with
    | none => rw [hv] at hsome; cases hsome
    | some v =>
      rw [hsettled]
      simp [hv]

end KaizenStation.Firmware
