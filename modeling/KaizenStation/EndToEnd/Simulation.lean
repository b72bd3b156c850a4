/-
KaizenStation.EndToEnd.Simulation — the simulated station of the demo against
the firmware.

Both get the same inputs, lose and regain the connection at the same moments,
and have their delivery attempts answered alike. Either is a `RetryBuffer`
(`processEvent_submits`, `emit_buffer`), and the reports of their events are
the same buffer after every step (`Matches.step`), as long as the firmware
has no reason to coalesce.
-/
import KaizenStation.Firmware.RetryTheorems
import KaizenStation.Backend.Demo
import KaizenStation.EndToEnd.Wire

namespace KaizenStation.EndToEnd

open KaizenStation.Foundation KaizenStation.Firmware KaizenStation.Backend

namespace Simulation

/-! ## The two sides -/

/-- The firmware with this connection and enough memory for cJSON; whether
MQTT accepts is up to `p` at every call. -/
def linked (p : Platform) (online : Bool) : Platform :=
  { p with env := fun k => { p.env k with connected := online, allocated := true } }

/-- A published event and the name it goes by. -/
structure Input where
  event : Event
  kind : InputKind
  named : inputKind? event.type = some kind

inductive Act where
  | input (input : Input)
  | disconnect (now : UInt64)
  | reconnect (now : UInt64)
  | flush

def Act.isInput : Act → Bool
  | .input _ => true
  | _ => false

/-- The central task and the connection of its MQTT manager. -/
structure Device where
  application : Application
  online : Bool := false

def Device.boot (capacity : Nat) (mutex : Bool) (led : LedDriver) : Device where
  application := Application.boot (OfflineEventStore.create capacity mutex) led

/-- The manager reports a change of the connection by an event. -/
def Device.step (p : Platform) (d : Device) : Act → Device
  | .input input =>
    { d with application := d.application.processEvent (linked p d.online) input.event }
  | .disconnect now =>
    { application := d.application.processEvent (linked p false)
        (connectionEvent .mqttDisconnected false now)
      online := false }
  | .reconnect now =>
    { application := d.application.processEvent (linked p true)
        (connectionEvent .mqttConnected true now)
      online := true }
  | .flush => { d with application := d.application.flushIfPending (linked p d.online) }

def Device.run (p : Platform) (d : Device) (acts : List Act) : Device := acts.foldl (step p) d

/-- The same for the simulated station. -/
def stationStep (answers : Nat → Bool) (s : SimulatedStation) : Act → SimulatedStation
  | .input input =>
    (s.emit answers input.kind input.event.sourceId.toNat input.event.value.toInt).1
  | .disconnect _ => s.disconnect
  | .reconnect _ => s.reconnect answers
  | .flush => s.flush answers

def stationRun (answers : Nat → Bool) (s : SimulatedStation) (acts : List Act) :
    SimulatedStation := acts.foldl (stationStep answers) s

/-! ## Reports -/

/-- What is compared of an event. -/
structure Report where
  kind : Option InputKind
  source : Int
  value : Int
  sequence : Int
  deriving DecidableEq

def eventReport (event : Event) : Report where
  kind := inputKind? event.type
  source := event.sourceId.toNat
  value := event.value.toInt
  sequence := event.sequenceId.toNat

def stationReport (event : StationEvent) : Report where
  kind := some event.eventType
  source := event.sourceId
  value := event.value
  sequence := event.sequenceId

theorem Input.published (input : Input) :
    Application.shouldPublish input.event = true := by
  rw [← inputKind?_isSome, input.named]
  rfl

theorem Input.heartbeat (input : Input) :
    (input.event.type == .heartbeat) = (input.kind == .heartbeat) := by
  obtain ⟨event, kind, hnamed⟩ := input
  simp only
  cases ht : event.type <;> rw [ht] at hnamed <;> cases hnamed <;> rfl

/-- Below 2^32 the two sides number their events alike. -/
theorem Input.report (input : Input) {sequenceId : UInt32} {s : SimulatedStation}
    (hnumber : sequenceId = UInt32.ofNat s.sequence) (hfew : s.sequence < 2 ^ 32) :
    eventReport { input.event with sequenceId := sequenceId } =
      stationReport
        (s.event input.kind input.event.sourceId.toNat input.event.value.toInt) := by
  have hsequence : sequenceId.toNat = s.sequence := by
    rw [hnumber, UInt32.toNat_ofNat_of_lt' hfew]
  simp [eventReport, stationReport, SimulatedStation.event, input.named, hsequence]

section Lockstep

variable {p : Platform} {answers : Nat → Bool} {capacity : Nat} {mutex : Bool}

theorem linked_steady (hprint : ∀ event, (p.text event).isEmpty = false) (online : Bool) :
    (linked p online).Steady online := ⟨fun _ => rfl, fun _ => rfl, hprint⟩

/-- What the trace says of the platform does not depend on the connection. -/
theorem ready_linked {online : Bool} {a : Application}
    (hr : Application.Ready (linked p online) capacity mutex a) (online' : Bool) :
    Application.Ready (linked p online') capacity mutex a := by
  refine ⟨hr.bound, hr.lock, hr.wellFormed, hr.idle, fun o ho => ?_⟩
  have honest := hr.honest o ho
  cases o with
  | publish => exact honest
  | unserializable => exact honest
  | _ => trivial

theorem step_ready {d : Device} (hr : Application.Ready (linked p d.online) capacity mutex
    d.application) (act : Act) :
    Application.Ready (linked p (d.step p act).online) capacity mutex (d.step p act).application ∧
    Outbox.Steps (outboxPolicy capacity mutex) (d.application.outbox [])
      ((d.step p act).application.outbox []) := by
  cases act with
  | input input =>
    have h := Application.processEvent_processed hr input.event
    exact ⟨h.ready, h.steps⟩
  | disconnect now =>
    have h := Application.processEvent_processed (ready_linked hr false)
      (connectionEvent .mqttDisconnected false now)
    exact ⟨h.ready, h.steps⟩
  | reconnect now =>
    have h := Application.processEvent_processed (ready_linked hr true)
      (connectionEvent .mqttConnected true now)
    exact ⟨h.ready, h.steps⟩
  | flush =>
    have h := Application.flushIfPending_advances hr []
    exact ⟨h.ready, h.steps⟩

theorem run_ready {d : Device} (hr : Application.Ready (linked p d.online) capacity mutex
    d.application) (acts : List Act) :
    Application.Ready (linked p (d.run p acts).online) capacity mutex (d.run p acts).application ∧
    Outbox.Steps (outboxPolicy capacity mutex) (d.application.outbox [])
      ((d.run p acts).application.outbox []) := by
  induction acts generalizing d with
  | nil => exact ⟨hr, Relation.ReflTransGen.refl⟩
  | cons act acts ih =>
    obtain ⟨hready, hsteps⟩ := step_ready hr act
    obtain ⟨hready', hsteps'⟩ := ih hready
    exact ⟨hready', hsteps.trans hsteps'⟩

/-! ## One step -/

variable (p capacity mutex) in
structure Matches (d : Device) (s : SimulatedStation) : Prop where
  ready : Application.Ready (linked p d.online) capacity mutex d.application
  online : s.online = d.online
  capacity : s.capacity = room capacity mutex
  sequence : d.application.nextSequenceId = UInt32.ofNat s.sequence
  buffer : d.application.buffer.map eventReport = s.buffer.map stationReport

theorem Matches.input (hprint : ∀ event, (p.text event).isEmpty = false) {d : Device}
    {s : SimulatedStation} (h : Matches p capacity mutex d s) {input : Input}
    (hfew : s.sequence < 2 ^ 32)
    (hf : (d.step p (.input input)).application.Follows answers) :
    Matches p capacity mutex (d.step p (.input input)) (stationStep answers s (.input input)) := by
  have hsteady := linked_steady hprint d.online
  have hprocessed := Application.processEvent_processed h.ready input.event
  have hsettings := SimulatedStation.emit_settings answers s input.kind
    input.event.sourceId.toNat input.event.value.toInt
  refine ⟨hprocessed.ready, hsettings.online.trans h.online,
    hsettings.capacity.trans h.capacity, ?_, ?_⟩
  · show (d.application.processEvent (linked p d.online) input.event).nextSequenceId = _
    rw [hprocessed.nextSequenceId, if_pos input.published, h.sequence]
    show _ = UInt32.ofNat (s.emit answers _ _ _).1.sequence
    rw [hsettings.sequence, UInt32.ofNat_add]
    rfl
  · have hsubmits := Application.processEvent_submits hsteady h.ready input.published hf
    show ((d.application.processEvent (linked p d.online) input.event).buffer).map _ =
      ((s.emit answers _ _ _).1.buffer).map _
    rw [hsubmits, SimulatedStation.emit_buffer, RetryBuffer.map_submit, RetryBuffer.map_submit,
      h.buffer, h.online, h.capacity, input.heartbeat, input.report h.sequence hfew]

theorem Matches.disconnect {d : Device} {s : SimulatedStation} (h : Matches p capacity mutex d s)
    (now : UInt64) :
    Matches p capacity mutex (d.step p (.disconnect now)) s.disconnect := by
  have hprocessed := Application.processEvent_processed (ready_linked h.ready false)
    (connectionEvent .mqttDisconnected false now)
  have hother : (connectionEvent .mqttDisconnected false now).type ≠ .mqttConnected := by
    simp [connectionEvent]
  have hsilent := Application.processEvent_silent (linked p false) d.application rfl hother
  refine ⟨hprocessed.ready, rfl, h.capacity, hprocessed.nextSequenceId.trans h.sequence, ?_⟩
  exact (congrArg _ hsilent).trans h.buffer

/-- Both sides flush the same line, if the connection is there. -/
theorem Matches.flushed {d : Device} {s : SimulatedStation} (h : Matches p capacity mutex d s)
    {online : Bool} {b : RetryBuffer Event}
    (hb : b = if online then d.application.buffer.flush answers else d.application.buffer) :
    b.map eventReport =
      (SimulatedStation.flush answers { s with online := online }).buffer.map stationReport := by
  rw [hb, SimulatedStation.flush_buffer]
  cases online with
  | false => exact h.buffer
  | true =>
    rw [if_pos rfl, if_pos rfl, RetryBuffer.map_flush, RetryBuffer.map_flush, h.buffer]
    rfl

theorem Matches.reconnect (hprint : ∀ event, (p.text event).isEmpty = false) {d : Device}
    {s : SimulatedStation} (h : Matches p capacity mutex d s) {now : UInt64}
    (hf : (d.step p (.reconnect now)).application.Follows answers) :
    Matches p capacity mutex (d.step p (.reconnect now)) (s.reconnect answers) := by
  have hprocessed := Application.processEvent_processed (ready_linked h.ready true)
    (connectionEvent .mqttConnected true now)
  have hf' : (d.application.processEvent (linked p true)
      (connectionEvent .mqttConnected true now)).Follows answers := hf
  have hflushes := Application.processEvent_flushes (linked_steady hprint true)
    (ready_linked h.ready true) rfl hf'
  have hsettings := SimulatedStation.flush_settings answers { s with online := true }
  refine ⟨hprocessed.ready, hsettings.online, hsettings.capacity.trans h.capacity, ?_,
    h.flushed hflushes⟩
  refine (hprocessed.nextSequenceId.trans h.sequence).trans ?_
  exact congrArg UInt32.ofNat hsettings.sequence.symm

theorem Matches.flush (hprint : ∀ event, (p.text event).isEmpty = false) {d : Device}
    {s : SimulatedStation} (h : Matches p capacity mutex d s)
    (hf : (d.step p .flush).application.Follows answers) :
    Matches p capacity mutex (d.step p .flush) (s.flush answers) := by
  have hadvances := Application.flushIfPending_advances h.ready []
  have hflush := Application.flushIfPending_buffer (linked_steady hprint d.online) h.ready hf
  have hsettings := SimulatedStation.flush_settings answers s
  refine ⟨hadvances.ready, hsettings.online.trans h.online,
    hsettings.capacity.trans h.capacity, ?_, ?_⟩
  · refine (hadvances.untouched.nextSequenceId.trans h.sequence).trans ?_
    exact congrArg UInt32.ofNat hsettings.sequence.symm
  · have hsame : { s with online := d.online } = s := by rw [← h.online]
    have hbuffer := h.flushed hflush
    rwa [hsame] at hbuffer

/-- A step of both keeps the match. -/
theorem Matches.step (hprint : ∀ event, (p.text event).isEmpty = false) {d : Device}
    {s : SimulatedStation} (h : Matches p capacity mutex d s) {act : Act}
    (hfew : act.isInput = true → s.sequence < 2 ^ 32)
    (hf : (d.step p act).application.Follows answers) :
    Matches p capacity mutex (d.step p act) (stationStep answers s act) := by
  cases act with
  | input input => exact h.input hprint (hfew rfl) hf
  | disconnect now => exact h.disconnect now
  | reconnect now => exact h.reconnect hprint hf
  | flush => exact h.flush hprint hf

/-! ## Runs -/

theorem boot_matches (p : Platform) (capacity : Nat) (mutex : Bool) (led : LedDriver)
    (station : String) :
    Matches p capacity mutex (Device.boot capacity mutex led)
      { station := station, capacity := room capacity mutex } :=
  ⟨Application.boot_ready (linked p false) capacity mutex led, rfl, rfl, rfl, rfl⟩

theorem run_append (d : Device) (acts acts' : List Act) :
    d.run p (acts ++ acts') = (d.run p acts).run p acts' := List.foldl_append ..

/-- The station numbers its inputs. -/
theorem stationStep_sequence (s : SimulatedStation) (act : Act) :
    (stationStep answers s act).sequence = s.sequence + if act.isInput then 1 else 0 := by
  cases act with
  | input input => exact (SimulatedStation.emit_settings answers s input.kind _ _).sequence
  | disconnect => rfl
  | reconnect => exact (SimulatedStation.flush_settings answers { s with online := true }).sequence
  | flush => exact (SimulatedStation.flush_settings answers s).sequence

theorem Matches.run (hprint : ∀ event, (p.text event).isEmpty = false) {d : Device}
    {s : SimulatedStation} (h : Matches p capacity mutex d s) {acts : List Act}
    (hfew : s.sequence + acts.countP Act.isInput ≤ 2 ^ 32)
    (hf : (d.run p acts).application.Follows answers) :
    Matches p capacity mutex (d.run p acts) (stationRun answers s acts) := by
  induction acts generalizing d s with
  | nil => exact h
  | cons act acts ih =>
    have hready := (step_ready h.ready act).1
    have hfirst := hf.before (run_ready hready acts).2
    rw [List.countP_cons] at hfew
    have hnumber : act.isInput = true → s.sequence < 2 ^ 32 := by
      intro hinput
      rw [if_pos hinput] at hfew
      omega
    have hnext := h.step hprint hnumber hfirst
    refine ih hnext ?_ hf
    rw [stationStep_sequence]
    omega

/-- What the device lost, it could not send or had no room for. -/
theorem run_losses (hprint : ∀ event, (p.text event).isEmpty = false) (led : LedDriver)
    (acts : List Act) :
    let a := ((Device.boot capacity mutex led).run p acts).application
    (∀ older newer, (older, Loss.superseded newer) ∉ a.losses) →
      ∀ l ∈ a.losses, (l.2 = .discarded ∧ l.1.type = .heartbeat) ∨
        ∃ held, l.2 = .rejected held ∧ room capacity mutex ≤ held.length := by
  intro a hnone l hl
  obtain ⟨hready, hsteps⟩ := run_ready (boot_matches p capacity mutex led "").ready acts
  have hsound : Outbox.Sound (outboxPolicy capacity mutex)
      ((Device.boot capacity mutex led).application.outbox []) := Outbox.sound_empty
  have hjustified := (hsound.steps hsteps).justified l hl
  obtain ⟨event, why⟩ := l
  cases why with
  | superseded newer => exact absurd hl (hnone event newer)
  | discarded => exact .inl ⟨rfl, of_decide_eq_true hjustified⟩
  | rejected held =>
    refine .inr ⟨held, rfl, ?_⟩
    unfold room
    split
    · next hm => exact (hjustified hm).1
    · exact Nat.zero_le _
  | dropped =>
    -- an event is only dropped for want of a payload
    obtain ⟨o, ho, hlost⟩ := List.mem_filterMap.mp hl
    have honest := hready.honest o ho
    cases o with
    | unserializable other =>
      have htext : (p.text other).isEmpty = true := honest
      rw [hprint other] at htext
      cases htext
    | _ => cases hlost

end Lockstep

/-! ## The result -/

/-- If every event has a payload, the attempts are answered alike and the
firmware never erases an event for a newer one, then after every step of any
run of fewer than 2^32 inputs the simulated station and the firmware have
made the same attempts, delivered the same events, hold the same ones back
and have lost the same ones, each a heartbeat that was not sent or an event
for which there was no room. -/
theorem simulation_matches (p : Platform) (hprint : ∀ event, (p.text event).isEmpty = false)
    (capacity : Nat) (mutex : Bool) (led : LedDriver) (station : String) (answers : Nat → Bool)
    (acts : List Act) (hfew : acts.countP Act.isInput < 2 ^ 32) :
    let device := fun acts => ((Device.boot capacity mutex led).run p acts).application
    let simulated := stationRun answers { station := station, capacity := room capacity mutex }
    (∀ n attempt, (device acts).attempts[n]? = some attempt → attempt.2 = answers n) →
    (∀ older newer, (older, Loss.superseded newer) ∉ (device acts).losses) →
    ∀ before after, acts = before ++ after →
      let a := device before
      let s := simulated before
      a.attempts.map (fun attempt => (eventReport attempt.1, attempt.2)) =
        s.attempts.map (fun attempt => (stationReport attempt.1, attempt.2)) ∧
      a.accepted.map eventReport = s.delivered.map stationReport ∧
      a.offlineStore.events.map eventReport = s.pending.map stationReport ∧
      a.losses.map (fun loss => eventReport loss.1) = s.dropped.map stationReport ∧
      ∀ loss ∈ a.losses, (loss.2 = .discarded ∧ loss.1.type = .heartbeat) ∨
        ∃ held, loss.2 = .rejected held ∧ room capacity mutex ≤ held.length := by
  intro device simulated hanswered huncoalesced before after hsplit a s
  have hboot := boot_matches p capacity mutex led station
  have hwhole : (device acts).Follows answers := ⟨hanswered, huncoalesced⟩
  have hf : a.Follows answers := by
    have hsteps := (run_ready (run_ready hboot.ready before).1 after).2
    rw [← run_append, ← hsplit] at hsteps
    exact hwhole.before hsteps
  have hcount : before.countP Act.isInput ≤ acts.countP Act.isInput := by
    rw [hsplit, List.countP_append]
    exact Nat.le_add_right _ _
  have hbuffer : a.buffer.map eventReport = s.buffer.map stationReport := by
    refine (hboot.run hprint ?_ hf).buffer
    show 1 + before.countP Act.isInput ≤ 2 ^ 32
    omega
  have hattempts : a.attempts.map (fun attempt => (eventReport attempt.1, attempt.2)) =
      s.attempts.map (fun attempt => (stationReport attempt.1, attempt.2)) :=
    congrArg RetryBuffer.attempts hbuffer
  have hdelivered : a.buffer.delivered.map eventReport = s.buffer.delivered.map stationReport := by
    rw [← RetryBuffer.map_delivered, hbuffer, RetryBuffer.map_delivered]
  have hdropped : (a.losses.map (·.1)).map eventReport = s.dropped.map stationReport :=
    congrArg RetryBuffer.dropped hbuffer
  rw [List.map_map] at hdropped
  exact ⟨hattempts, hdelivered, congrArg RetryBuffer.pending hbuffer, hdropped,
    run_losses hprint led before hf.uncoalesced⟩

theorem reference_nonempty (members : List (CString × CJsonItem)) :
    (CJson.reference.printUnformatted members).isEmpty = false := by
  show (String.ofList _).isEmpty = false
  unfold Json.printObject
  cases Json.printMembers (members.map CJsonItem.named) <;> simp

/-- The toggle and the slider of the demo, both moved before the station is
first connected. -/
def toggled : Input where
  event := { type := .toggleChanged, sourceId := 2, value := 1 }
  kind := .toggleChanged
  named := rfl

def slid : Input where
  event := { type := .analogChanged, sourceId := 4, value := 75 }
  kind := .analogChanged
  named := rfl

/-- The second delivery attempt is refused. -/
def secondRefused : Platform where
  config := defaultConfig
  cjson := CJson.reference
  env := fun k => { connected := true, allocated := true, accepted := k ≠ 6 }

theorem simulation_matches_demo :
    let acts := [.input toggled, .input slid, .reconnect 100]
    ((Device.boot 64 true {}).run secondRefused acts).application.offlineStore.events.map
      eventReport = (stationRun (· != 1) {} acts).pending.map stationReport := by
  have hanswers : ((Device.boot 64 true {}).run secondRefused
      [.input toggled, .input slid, .reconnect 100, .reconnect 200]).application.attempts.map
        (·.2) = [true, false, true] := by decide +kernel
  have hlosses : ((Device.boot 64 true {}).run secondRefused
      [.input toggled, .input slid, .reconnect 100, .reconnect 200]).application.losses.length =
        0 := by decide +kernel
  refine (simulation_matches secondRefused (fun _ => reference_nonempty _) 64 true {} "station_01"
    (· != 1) [.input toggled, .input slid, .reconnect 100, .reconnect 200] (by decide) ?_ ?_
    [.input toggled, .input slid, .reconnect 100] [.reconnect 200] rfl).2.2.1
  · intro n attempt hattempt
    have hn : [true, false, true][n]? = some attempt.2 := by
      rw [← hanswers, List.getElem?_map, hattempt]
      rfl
    match n with
    | 0 | 1 | 2 => exact (Option.some.inj hn).symm
    | n + 3 => simp at hn
  · intro older newer
    rw [List.length_eq_zero_iff.mp hlosses]
    simp

end Simulation

end KaizenStation.EndToEnd
