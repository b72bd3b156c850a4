/-
KaizenStation.Backend.IsolationTheorems — one station's messages and another
station's record.

`parse_event` lets an event pass on one topic only, the one of the
`device_id` it carries, and the adapter writes the record of that
`device_id`. The middleware is therefore keyed by station
(`Middleware.keyed_onMessage`), and so is the loop that handles only what was
accepted (`Middleware.keyed_handleAll`).
-/
import KaizenStation.Foundation.Keyed
import KaizenStation.Backend.ServiceTheorems

namespace KaizenStation.Backend

open KaizenStation.Foundation

variable {loads : Loads}

/-! ## The adapter -/

/-- What an event makes of the record of its station, if there is one. -/
def Workstation.applyTo (state : Option Workstation) (x : StationEvent × Option Int) :
    Option Workstation :=
  some ((state.getD {}).apply x)

namespace MockOdooAdapter

theorem workstations_handleEvent (adapter : MockOdooAdapter) (x : StationEvent × Option Int)
    (station : String) :
    (adapter.handleEvent loads x.1 x.2).1.workstations station =
      if station = x.1.deviceId then Workstation.applyTo (adapter.workstations station) x
      else adapter.workstations station := by
  by_cases hs : station = x.1.deviceId
  · simp [handleEvent, store, record, Workstation.applyTo, Workstation.apply, hs]
  · simp [handleEvent, store, hs]

/-- The events of a station work on its record alone. -/
theorem keyed_handleEvent :
    Keyed workstations (fun adapter x => (adapter.handleEvent loads x.1 x.2).1)
      (fun x : StationEvent × Option Int => some x.1.deviceId) Workstation.applyTo := by
  constructor
  · intro adapter x station hkey
    rw [workstations_handleEvent, if_pos (Option.some.inj hkey).symm]
  · intro adapter x station hkey
    rw [workstations_handleEvent, if_neg fun hs => hkey (by rw [hs])]

/-- A publication of an event goes to the command topic of its station. -/
theorem publication_topic {adapter : MockOdooAdapter} {event : StationEvent}
    {receivedAtNs : Option Int} {publications : List Publication}
    (h : (adapter.handleEvent loads event receivedAtNs).2 = .ok publications)
    {publication : Publication} (hp : publication ∈ publications) :
    commandTopic event.deviceId = .ok publication.1 := by
  simp only [handleEvent] at h
  cases hc : ((adapter.record event.deviceId).handleEvent event receivedAtNs).2 with
  | none =>
    rw [hc] at h
    cases h
    cases hp
  | some command =>
    rw [hc] at h
    obtain ⟨made, hmade, hlist⟩ := bind_ok.mp h
    cases hlist
    rw [List.mem_singleton.mp hp]
    obtain ⟨_, -, hmade⟩ := bind_ok.mp hmade
    obtain ⟨topic, htopic, hmade⟩ := bind_ok.mp hmade
    cases hmade
    exact htopic

end MockOdooAdapter

/-! ## The callback -/

namespace Callback

/-- What a callback hands to the adapter. -/
def event? (loads : Loads) (callback : Callback) : Option (StationEvent × Option Int) :=
  if callback.retain then none
  else (parseEvent loads callback.topic callback.payload).toOption.map
    fun event => (event, some callback.timeNs)

/-- The message is not retained, arrives on the event topic of the station, and
`parse_event` accepts it. -/
def accepted (loads : Loads) (station : String) (callback : Callback) : Bool :=
  !callback.retain && decide (eventTopic station = .ok callback.topic) &&
    (parseEvent loads callback.topic callback.payload).isOk

/-- The station of a message that is accepted. -/
def station? (loads : Loads) (callback : Callback) : Option String :=
  (callback.event? loads).map (·.1.deviceId)

/-- What is accepted on the topic of a station is of that station. -/
theorem accepted_iff (station : String) (callback : Callback) :
    callback.accepted loads station = true ↔ callback.station? loads = some station := by
  simp only [accepted, station?, event?]
  cases hretain : callback.retain with
  | true => simp
  | false =>
    cases hparse : parseEvent loads callback.topic callback.payload with
    | error e => simp [Except.isOk, Except.toBool, Except.toOption]
    | ok event =>
      obtain ⟨data, -, -, -, htopic, hw, -⟩ := parseEvent_ok.mp hparse
      have hself := eventTopic_valid hw.device
      simp only [Bool.not_false, Bool.true_and, Except.isOk, Except.toBool, Bool.and_true,
        decide_eq_true_eq, Bool.false_eq_true, if_false, Except.toOption, Option.map_some,
        Option.some.injEq]
      constructor
      · intro h
        exact eventTopicOf_inj (htopic.symm.trans (eventTopic_ok.mp h).2)
      · rintro rfl
        rw [htopic]
        exact hself

end Callback

/-! ## The middleware -/

namespace Middleware

variable (answers : Nat → Bool)

/-- The adapter gets what the callback hands to it. -/
theorem onMessage_adapter (m : Middleware) (callback : Callback) :
    (m.onMessage loads answers callback).adapter =
      match callback.event? loads with
      | none => m.adapter
      | some x => (m.adapter.handleEvent loads x.1 x.2).1 := by
  simp only [onMessage, Callback.event?]
  cases callback.retain with
  | true => rfl
  | false =>
    simp only [Bool.false_eq_true, if_false, handleMessage_adapter, Callback.message]
    cases parseEvent loads callback.topic callback.payload <;> rfl

/-- What a callback makes of the record of its station. -/
def callbackActs (loads : Loads) (state : Option Workstation) (callback : Callback) :
    Option Workstation :=
  (callback.event? loads).elim state (Workstation.applyTo state)

theorem keyed_onMessage :
    Keyed (fun m : Middleware => m.adapter.workstations) (onMessage loads answers)
      (Callback.station? loads) (callbackActs loads) := by
  have hkeyed := @MockOdooAdapter.keyed_handleEvent loads
  constructor
  · intro m callback station hkey
    simp only [onMessage_adapter, callbackActs]
    cases hx : callback.event? loads with
    | none => simp [Callback.station?, hx] at hkey
    | some x =>
      rw [Callback.station?, hx] at hkey
      exact hkeyed.own m.adapter x station hkey
  · intro m callback station hkey
    simp only [onMessage_adapter]
    cases hx : callback.event? loads with
    | none => rfl
    | some x =>
      rw [Callback.station?, hx] at hkey
      exact hkeyed.other m.adapter x station hkey

/-- The messages that are accepted for a station, as calls of
`handle_message`. -/
def acceptedFor (loads : Loads) (station : String) (callbacks : List Callback) : List Message :=
  (callbacks.filter (Callback.accepted loads station)).map Callback.message

/-- Handling what is accepted is what `on_message` does with it. -/
theorem handleAll_acceptedFor (m : Middleware) (station : String) (callbacks : List Callback) :
    m.handleAll loads answers (acceptedFor loads station callbacks) =
      (callbacks.filter fun callback => callback.station? loads = some station).foldl
        (onMessage loads answers) m := by
  have hsame : Callback.accepted loads station =
      fun callback => decide (callback.station? loads = some station) := by
    funext callback
    rw [Bool.eq_iff_iff, Callback.accepted_iff, decide_eq_true_eq]
  rw [acceptedFor, ← hsame, handleAll, List.foldl_map]
  refine List.foldl_ext _ _ _ fun m callback hin => ?_
  have haccepted := (List.mem_filter.mp hin).2
  simp only [Callback.accepted, Bool.and_eq_true, Bool.not_eq_true'] at haccepted
  rw [onMessage, haccepted.1.1]
  rfl

theorem publishAll_published (m : Middleware) (publications : List Publication) :
    ∃ made, (m.publishAll answers publications).1.published = m.published ++ made ∧
      ∀ p ∈ made, p.1 ∈ publications := by
  induction publications generalizing m with
  | nil => exact ⟨[], by simp [publishAll], by simp⟩
  | cons publication rest ih =>
    simp only [publishAll]
    cases answers m.published.length with
    | false => exact ⟨[(publication, false)], by simp, by simp⟩
    | true =>
      obtain ⟨made, hmade, hmem⟩ :=
        ih { m with published := m.published ++ [(publication, true)] }
      refine ⟨(publication, true) :: made, by simpa using hmade, ?_⟩
      intro p hp
      rcases List.mem_cons.mp hp with rfl | hp
      · exact List.mem_cons_self
      · exact List.mem_cons_of_mem _ (hmem p hp)

/-- A publication that is refused is no `ValueError`. -/
theorem publishAll_raises (m : Middleware) (publications : List Publication) (message : String) :
    (m.publishAll answers publications).2 ≠ .error (.valueError message) := by
  induction publications generalizing m with
  | nil => simp [publishAll]
  | cons publication rest ih =>
    simp only [publishAll]
    cases answers m.published.length with
    | false => simp
    | true => exact ih _

/-- A message is answered on the command topic of the station whose event
topic it came on. -/
theorem handleMessage_published (m : Middleware) (message : Message) :
    ∃ made, (m.handleMessage loads answers message).1.published = m.published ++ made ∧
      ∀ p ∈ made, ∃ station, eventTopic station = .ok message.topic ∧
        commandTopic station = .ok p.1.1 := by
  unfold handleMessage
  cases hparse : parseEvent loads message.topic message.payload with
  | error e => exact ⟨[], by simp, by simp⟩
  | ok event =>
    simp only
    cases hsent : (m.adapter.handleEvent loads event
        (some (message.receivedAtNs.getD message.timeNs))).2 with
    | error e => exact ⟨[], by simp, by simp⟩
    | ok publications =>
      obtain ⟨data, -, -, -, htopic, hw, -⟩ := parseEvent_ok.mp hparse
      obtain ⟨made, hmade, hmem⟩ := publishAll_published answers
        { m with adapter := (m.adapter.handleEvent loads event
          (some (message.receivedAtNs.getD message.timeNs))).1 } publications
      refine ⟨made, by simpa using hmade, fun p hp => ⟨event.deviceId, ?_, ?_⟩⟩
      · rw [htopic]
        exact eventTopic_valid hw.device
      · exact MockOdooAdapter.publication_topic hsent (hmem p hp)

/-- Only `parse_event` raises a `ValueError`, before anything is done. -/
theorem handleMessage_refused (hl : loads.Standard) (m : Middleware) (message : Message)
    {text : String}
    (h : (m.handleMessage loads answers message).2 = .error (.valueError text)) :
    (m.handleMessage loads answers message).1 = m := by
  unfold handleMessage at h ⊢
  cases hparse : parseEvent loads message.topic message.payload with
  | error e => rfl
  | ok event =>
    obtain ⟨data, -, -, -, -, hw, -⟩ := parseEvent_ok.mp hparse
    have hsent := m.adapter.handleEvent_result hl hw.device
      (some (message.receivedAtNs.getD message.timeNs))
    -- from here on the only exception is that of the publish loop
    have hloop : ∀ (m' : Middleware) (publications : List Publication),
        (m'.publishAll answers publications).2.map (fun _ => publications) ≠
          .error (.valueError text) := by
      intro m' publications hmap
      have hnot := m'.publishAll_raises answers publications text
      cases hout : (m'.publishAll answers publications).2 with
      | ok u => simp [hout, Except.map] at hmap
      | error e =>
        rw [hout] at hmap hnot
        exact hnot (congrArg Except.error (Except.error.inj hmap))
    simp only [hparse, hsent] at h
    exact absurd h (hloop _ _)

end Middleware

/-! ## The result -/

/-- In every run of callbacks the record of a station is what its own accepted
messages make of it, whatever is published and refused; a station without one
has no record; answers go to the station a message came from; and a message
refused with `ValueError` leaves no trace. -/
theorem stations_isolated (loads : Loads) (hl : loads.Standard) (answers answers' : Nat → Bool) :
    (∀ (m : Middleware) (callbacks : List Callback) (station : String),
      (m.onMessages loads answers callbacks).adapter.workstations station =
        (m.handleAll loads answers'
          (Middleware.acceptedFor loads station callbacks)).adapter.workstations station) ∧
    (∀ (callbacks : List Callback) (station : String),
      (∀ callback ∈ callbacks, callback.accepted loads station = false) →
        (Middleware.onMessages loads answers {} callbacks).adapter.workstations station = none) ∧
    (∀ (m : Middleware) (callback : Callback), ∃ made,
      (m.onMessage loads answers callback).published = m.published ++ made ∧
        ∀ p ∈ made, ∃ station, eventTopic station = .ok callback.topic ∧
          commandTopic station = .ok p.1.1) ∧
    (∀ (m : Middleware) (message : Message) (text : String),
      (m.handleMessage loads answers message).2 = .error (.valueError text) →
        (m.handleMessage loads answers message).1 = m) := by
  have hkeyed := @Middleware.keyed_onMessage loads answers
  refine ⟨?_, ?_, ?_, ?_⟩
  · intro m callbacks station
    rw [Middleware.handleAll_acceptedFor]
    exact hkeyed.foldl_eq (Middleware.keyed_onMessage answers') rfl callbacks
  · intro callbacks station hnone
    refine hkeyed.foldl_unnamed _ fun callback hin hkey => ?_
    have haccepted := (Callback.accepted_iff station callback).mpr hkey
    rw [hnone callback hin] at haccepted
    cases haccepted
  · intro m callback
    unfold Middleware.onMessage
    cases callback.retain with
    | true => exact ⟨[], by simp, by simp⟩
    | false => exact m.handleMessage_published answers callback.message
  · intro m message text h
    exact m.handleMessage_refused answers hl message h

/-- A switch that has been turned on, on the topic of some station. -/
def switchedOn (station topic : String) : Callback where
  topic := topic
  payload := .str (String.ofList ((Json.printObject (StationEvent.object
    { deviceId := station, sequenceId := 0, eventType := .toggleChanged, sourceId := 2, value := 1,
      timestampMs := 7, firmwareVersion := "1" })).getD []))
  retain := false
  timeNs := 5

/-- Two stations, the second of which also writes on the topic of a third. -/
def twoStations : List Callback :=
  [switchedOn "a" "kaizen/stations/a/events", switchedOn "b" "kaizen/stations/b/events",
   switchedOn "b" "kaizen/stations/c/events"]

/-- Every answer is refused. The first station has its own switch, the third
no record. -/
theorem stations_isolated_two :
    (Middleware.onMessages Loads.reference (fun _ => false) {} twoStations).adapter.workstations
        "a" =
      (Middleware.handleAll Loads.reference (fun _ => true) {}
        [(switchedOn "a" "kaizen/stations/a/events").message]).adapter.workstations "a" ∧
    (Middleware.onMessages Loads.reference (fun _ => false) {} twoStations).adapter.workstations
        "c" = none := by
  obtain ⟨hrecord, hnone, -, -⟩ := stations_isolated Loads.reference Loads.reference_standard
    (fun _ => false) (fun _ => true)
  have haccepted : twoStations.map (Callback.accepted Loads.reference "a") =
      [true, false, false] := by decide +kernel
  have hother : twoStations.all (fun callback => !callback.accepted Loads.reference "c") =
      true := by decide +kernel
  constructor
  · rw [hrecord {} twoStations "a"]
    simp only [twoStations, List.map_cons, List.map_nil, List.cons.injEq, and_true] at haccepted
    simp [Middleware.acceptedFor, twoStations, haccepted]
  · refine hnone twoStations "c" fun callback hin => ?_
    simpa using List.all_eq_true.mp hother callback hin

end KaizenStation.Backend
