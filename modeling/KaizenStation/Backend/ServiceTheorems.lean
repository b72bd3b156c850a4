/-
KaizenStation.Backend.ServiceTheorems — what one message does to the records.

A message that parses hands its event to the adapter, whatever the publish
callable answers afterwards; a message that does not parse changes nothing
(`handleMessage_record`). Each field of a record keeps the last value that an
event gave it (`writes_buttonPressed` and its siblings).
-/
import KaizenStation.Foundation.LastWriter
import KaizenStation.Backend.ProtocolTheorems
import KaizenStation.Backend.Service

namespace KaizenStation.Backend

open KaizenStation.Foundation

/-! ## What an event says of a field -/

namespace StationEvent

def button? (event : StationEvent) : Option Bool :=
  match event.eventType with
  | .buttonPressed | .buttonReleased => some (event.value != 0)
  | _ => none

def toggle? (event : StationEvent) : Option Bool :=
  match event.eventType with
  | .toggleChanged => some (event.value != 0)
  | _ => none

def encoder? (event : StationEvent) : Option Int :=
  match event.eventType with
  | .encoderChanged => some event.value
  | _ => none

def analog? (event : StationEvent) : Option Int :=
  match event.eventType with
  | .analogChanged => some event.value
  | _ => none

def heap? (event : StationEvent) : Option Int :=
  match event.eventType with
  | .heartbeat => some event.value
  | _ => none

def fault? (event : StationEvent) : Option Int :=
  match event.eventType with
  | .faultDetected => some event.value
  | _ => none

/-- The events that are answered with a command. -/
def asks? (event : StationEvent) : Option Unit :=
  match event.eventType with
  | .toggleChanged | .syncRequested => some ()
  | _ => none

end StationEvent

namespace Workstation

/-- One event with its ingress time. -/
def apply (state : Workstation) (x : StationEvent × Option Int) : Workstation :=
  (state.handleEvent x.1 x.2).1

theorem writes_buttonPressed : Writes buttonPressed apply (fun x => x.1.button?) := by
  intro state x
  cases h : x.1.eventType <;> simp [apply, handleEvent, stamped, StationEvent.button?, h]

theorem writes_taskDone : Writes taskDone apply (fun x => x.1.toggle?) := by
  intro state x
  cases h : x.1.eventType <;> simp [apply, handleEvent, stamped, StationEvent.toggle?, h]

theorem writes_desiredOutput : Writes desiredOutput apply (fun x => x.1.toggle?) := by
  intro state x
  cases h : x.1.eventType <;> simp [apply, handleEvent, stamped, StationEvent.toggle?, h]

theorem writes_targetCount : Writes targetCount apply (fun x => x.1.encoder?) := by
  intro state x
  cases h : x.1.eventType <;> simp [apply, handleEvent, stamped, StationEvent.encoder?, h]

theorem writes_progressPercent : Writes progressPercent apply (fun x => x.1.analog?) := by
  intro state x
  cases h : x.1.eventType <;> simp [apply, handleEvent, stamped, StationEvent.analog?, h]

theorem writes_freeHeapBytes : Writes freeHeapBytes apply (fun x => x.1.heap?) := by
  intro state x
  cases h : x.1.eventType <;> simp [apply, handleEvent, stamped, StationEvent.heap?, h]

theorem writes_faultCode : Writes faultCode apply (fun x => x.1.fault?) := by
  intro state x
  cases h : x.1.eventType <;> simp [apply, handleEvent, stamped, StationEvent.fault?, h]

theorem writes_lastDeviceUptimeMs :
    Writes lastDeviceUptimeMs apply (fun x => some x.1.timestampMs) := by
  intro state x
  cases h : x.1.eventType <;> simp [apply, handleEvent, stamped, h]

theorem writes_receivedAtNs : Writes receivedAtNs apply (fun x => x.2) := by
  intro state x
  cases h : x.1.eventType <;> simp [apply, handleEvent, stamped, h]

/-! ## The commands a run returns -/

/-- The commands, each with its output, in the order they are returned. -/
def commands (state : Workstation) : List (StationEvent × Option Int) → List (Bool × Command)
  | [] => []
  | x :: xs => (state.handleEvent x.1 x.2).2.toList ++ (state.apply x).commands xs

/-- A command carries the desired output of the record it comes from. -/
theorem command_output (state : Workstation) (x : StationEvent × Option Int) :
    (state.handleEvent x.1 x.2).2.map (·.1) =
      x.1.asks?.map fun _ => (state.apply x).desiredOutput := by
  cases h : x.1.eventType <;> simp [apply, handleEvent, stamped, StationEvent.asks?, h]

/-- The desired output changes with a command only, to what it carries. -/
theorem handleEvent_desiredOutput (state : Workstation) (event : StationEvent)
    (receivedAtNs : Option Int) :
    (state.handleEvent event receivedAtNs).1.desiredOutput =
      ((state.handleEvent event receivedAtNs).2.map (·.1)).getD state.desiredOutput := by
  cases h : event.eventType <;> simp [handleEvent, stamped, h]

/-- Events that ask for no command leave the desired output alone. -/
theorem desiredOutput_quiet (state : Workstation) {xs : List (StationEvent × Option Int)}
    (h : lastWrite (fun x => x.1.asks?) xs = none) :
    (xs.foldl apply state).desiredOutput = state.desiredOutput := by
  have hnone : lastWrite (fun x : StationEvent × Option Int => x.1.toggle?) xs = none := by
    rw [lastWrite_eq_none] at h ⊢
    intro x hx
    have hask := h x hx
    cases hk : x.1.eventType <;> simp_all [StationEvent.asks?, StationEvent.toggle?]
  rw [writes_desiredOutput.foldl, hnone, Option.getD_none]

/-- The last command of a run carries the final desired output, and there is
one exactly if some event asked for it. -/
theorem commands_last (state : Workstation) (xs : List (StationEvent × Option Int)) :
    (state.commands xs).getLast?.map (·.1) =
      (lastWrite (fun x => x.1.asks?) xs).map fun _ =>
        (xs.foldl apply state).desiredOutput := by
  induction xs generalizing state with
  | nil => rfl
  | cons x xs ih =>
    have ih := ih (state.apply x)
    have hx := command_output state x
    rw [commands, List.getLast?_append, lastWrite_cons, List.foldl_cons]
    cases hxs : lastWrite (fun x : StationEvent × Option Int => x.1.asks?) xs with
    | some u =>
      rw [hxs] at ih
      obtain ⟨c, hc, hout⟩ := Option.map_eq_some_iff.mp ih
      simp [hc, hout]
    | none =>
      rw [hxs] at ih
      have hrest : ((state.apply x).commands xs).getLast? = none := by simpa using ih
      have hlast : ∀ o : Option (Bool × Command), o.toList.getLast? = o := by
        intro o
        cases o <;> rfl
      rw [hrest, desiredOutput_quiet _ hxs, Option.none_or, Option.none_or, hlast, hx]

end Workstation

/-! ## One message -/

namespace MockOdooAdapter

@[simp] theorem record_store (adapter : MockOdooAdapter) (station : String) (state : Workstation) :
    (adapter.store station state).record station = state := by
  simp [record, store]

theorem record_handleEvent (loads : Loads) (adapter : MockOdooAdapter) (event : StationEvent)
    (receivedAtNs : Option Int) :
    (adapter.handleEvent loads event receivedAtNs).1.record event.deviceId =
      (adapter.record event.deviceId).apply (event, receivedAtNs) := by
  simp [handleEvent, Workstation.apply]

/-- For a valid station the adapter answers, with the command that the record
returns. -/
theorem handleEvent_result {loads : Loads} (hl : loads.Standard) (adapter : MockOdooAdapter)
    {event : StationEvent} (hs : isDeviceId event.deviceId = true) (receivedAtNs : Option Int) :
    (adapter.handleEvent loads event receivedAtNs).2 =
      .ok (((adapter.record event.deviceId).handleEvent event receivedAtNs).2.toList.map
        fun c => (commandTopicOf event.deviceId, dumpsCommand c.2 c.1)) := by
  simp only [handleEvent]
  cases ((adapter.record event.deviceId).handleEvent event receivedAtNs).2 with
  | none => rfl
  | some c => simp [makeCommand_valid hl hs, bind, Except.bind, pure, Except.pure]

/-- A remote change of a valid station is stored and made a command. -/
theorem setRemoteState_valid {loads : Loads} (hl : loads.Standard) (adapter : MockOdooAdapter)
    {station : String} (hs : isDeviceId station = true) (on : Bool) :
    (adapter.setRemoteState loads station on).1 =
        adapter.store station { adapter.record station with desiredOutput := on } ∧
      (adapter.setRemoteState loads station on).2 =
        .ok (commandTopicOf station, dumpsCommand .setState on) := by
  unfold setRemoteState
  rw [makeCommand_valid hl hs, deviceId_valid hs]
  exact ⟨rfl, rfl⟩

/-- Events handled one after the other, each with its ingress time. -/
def handleEvents (loads : Loads) (adapter : MockOdooAdapter)
    (xs : List (StationEvent × Option Int)) : MockOdooAdapter :=
  xs.foldl (fun adapter x => (adapter.handleEvent loads x.1 x.2).1) adapter

/-- The events of one station act on its record. -/
theorem record_handleEvents (loads : Loads) (adapter : MockOdooAdapter) {station : String}
    {xs : List (StationEvent × Option Int)} (h : ∀ x ∈ xs, x.1.deviceId = station) :
    (adapter.handleEvents loads xs).record station =
      xs.foldl Workstation.apply (adapter.record station) := by
  induction xs generalizing adapter with
  | nil => rfl
  | cons x xs ih =>
    have hx := record_handleEvent loads adapter x.1 x.2
    rw [h x List.mem_cons_self] at hx
    rw [List.foldl_cons, ← hx]
    exact ih _ fun y hy => h y (List.mem_cons_of_mem _ hy)

/-- What the events handled one after the other make the adapter publish. -/
def publications (loads : Loads) (adapter : MockOdooAdapter) :
    List (StationEvent × Option Int) → List Publication
  | [] => []
  | x :: xs =>
    (adapter.handleEvent loads x.1 x.2).2.toOption.getD [] ++
      (adapter.handleEvent loads x.1 x.2).1.publications loads xs

/-- For a valid station every command is made and published. -/
theorem publications_eq {loads : Loads} (hl : loads.Standard) (adapter : MockOdooAdapter)
    {station : String} (hs : isDeviceId station = true) {xs : List (StationEvent × Option Int)}
    (h : ∀ x ∈ xs, x.1.deviceId = station) :
    adapter.publications loads xs = ((adapter.record station).commands xs).map
      fun c => (commandTopicOf station, dumpsCommand c.2 c.1) := by
  induction xs generalizing adapter with
  | nil => rfl
  | cons x xs ih =>
    have hx := h x List.mem_cons_self
    have hrec := record_handleEvent loads adapter x.1 x.2
    rw [hx] at hrec
    have ih := ih (adapter.handleEvent loads x.1 x.2).1
      fun y hy => h y (List.mem_cons_of_mem _ hy)
    have hid : isDeviceId x.1.deviceId = true := by
      rw [hx]
      exact hs
    have hresult := handleEvent_result hl adapter hid x.2
    rw [publications, Workstation.commands, List.map_append, ih, hrec, hresult, hx]
    rfl

end MockOdooAdapter

namespace Middleware

variable {loads : Loads} (answers : Nat → Bool)

theorem publishAll_adapter (m : Middleware) (publications : List Publication) :
    (m.publishAll answers publications).1.adapter = m.adapter := by
  induction publications generalizing m with
  | nil => rfl
  | cons publication rest ih =>
    unfold publishAll
    simp only
    split
    · rfl
    · exact ih _

/-- The adapter after a message is decided by what the message parses to. -/
theorem handleMessage_adapter (m : Middleware) (message : Message) :
    (m.handleMessage loads answers message).1.adapter =
      match parseEvent loads message.topic message.payload with
      | .error _ => m.adapter
      | .ok event => (m.adapter.handleEvent loads event
          (some (message.receivedAtNs.getD message.timeNs))).1 := by
  unfold handleMessage
  cases parseEvent loads message.topic message.payload with
  | error e => rfl
  | ok event =>
    simp only
    cases (m.adapter.handleEvent loads event
        (some (message.receivedAtNs.getD message.timeNs))).2 with
    | error e => rfl
    | ok publications => exact publishAll_adapter answers _ publications

/-- The record of a station after a message that carries its event. -/
theorem handleMessage_record {m : Middleware} {message : Message} {event : StationEvent}
    (h : parseEvent loads message.topic message.payload = .ok event) :
    (m.handleMessage loads answers message).1.adapter.record event.deviceId =
      (m.adapter.record event.deviceId).apply
        (event, some (message.receivedAtNs.getD message.timeNs)) := by
  rw [handleMessage_adapter, h]
  exact MockOdooAdapter.record_handleEvent loads m.adapter event _

end Middleware

end KaizenStation.Backend
