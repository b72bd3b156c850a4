/-
KaizenStation.Backend.Demo — the `SimulatedStation` of `backend/demo.py`,
which stands in for the firmware in the demo and in the benchmark.

The callable `deliver` is outside the class: `answers n` is its answer to
call `n`. `attempts` and `dropped` are not attributes. They record the calls
of `deliver` with their answers, and the events that `emit` gave up when it
returned `False`. As a buffer the station is the `RetryBuffer` of the
foundation (`flush_buffer`, `emit_buffer`).
-/
import KaizenStation.Foundation.RetryBuffer
import KaizenStation.Backend.Protocol

namespace KaizenStation.Backend

open KaizenStation.Foundation

/-- `class SimulatedStation`. -/
structure SimulatedStation where
  station : String := "station_01"
  capacity : Nat := 64
  pending : List StationEvent := []
  online : Bool := false
  sequence : Nat := 1
  output : Bool := false
  localValues : Int → Option Int := fun _ => none
  attempts : List (StationEvent × Bool) := []
  dropped : List StationEvent := []

namespace SimulatedStation

variable (answers : Nat → Bool)

/-- `self.deliver(event)`. -/
def deliver (s : SimulatedStation) (event : StationEvent) : SimulatedStation × Bool :=
  let accepted := answers s.attempts.length
  ({ s with attempts := s.attempts ++ [(event, accepted)] }, accepted)

/-- `SimulatedStation.flush`. -/
def flush (s : SimulatedStation) : SimulatedStation :=
  match _h : s.pending with
  | [] => s
  | event :: rest =>
    if !s.online then s
    else
      let (s, accepted) := s.deliver answers event
      if !accepted then s else flush { s with pending := rest }
termination_by s.pending.length
decreasing_by simp [_h]

/-- The event that `emit` makes. -/
def event (s : SimulatedStation) (kind : InputKind) (source value : Int) : StationEvent where
  deviceId := s.station
  sequenceId := s.sequence
  eventType := kind
  sourceId := source
  value := value
  timestampMs := s.sequence * 100
  firmwareVersion := "0.1.0"

/-- `self.online and not self.pending and self.deliver(event)`. -/
def deliverNow (s : SimulatedStation) (event : StationEvent) : SimulatedStation × Bool :=
  if s.online && s.pending.isEmpty then s.deliver answers event else (s, false)

/-- `return False` for an event that is not kept. -/
def giveUp (s : SimulatedStation) (event : StationEvent) : SimulatedStation × Bool :=
  ({ s with dropped := s.dropped ++ [event] }, false)

/-- The end of `emit` for an event that was not delivered. -/
def keep (s : SimulatedStation) (event : StationEvent) : SimulatedStation × Bool :=
  if event.eventType = .heartbeat then s.giveUp event
  else if s.pending.length ≥ s.capacity then s.giveUp event
  else ({ s with pending := s.pending ++ [event] }, true)

/-- `SimulatedStation.emit`. -/
def emit (s : SimulatedStation) (kind : InputKind) (source value : Int) :
    SimulatedStation × Bool :=
  let event := s.event kind source value
  let s := { s with
    localValues := fun key => if key = source then some value else s.localValues key
    sequence := s.sequence + 1 }
  let s := s.flush answers
  let (s, accepted) := s.deliverNow answers event
  if accepted then (s, true) else s.keep event

/-- `SimulatedStation.reconnect`. -/
def reconnect (s : SimulatedStation) : SimulatedStation :=
  flush answers { s with online := true }

/-- `self.online = False`. -/
def disconnect (s : SimulatedStation) : SimulatedStation := { s with online := false }

/-- `SimulatedStation.receive`. -/
def receive (loads : Loads) (s : SimulatedStation) (topic : String) (payload : Payload) :
    Except PyError (SimulatedStation × Bool) :=
  if !s.online then .ok (s, false)
  else do
    let expected ← commandTopic s.station
    if topic ≠ expected then return (s, false)
    let (_, on) ← parseCommand loads payload
    return ({ s with output := on }, true)

/-- The delivered events, in the order of delivery. -/
def delivered (s : SimulatedStation) : List StationEvent :=
  (s.attempts.filter (·.2)).map (·.1)

/-! ## The station as a buffer -/

def buffer (s : SimulatedStation) : RetryBuffer StationEvent where
  pending := s.pending
  attempts := s.attempts
  dropped := s.dropped

/-- What no delivery changes. -/
structure SameSettings (s s' : SimulatedStation) : Prop where
  station : s'.station = s.station
  capacity : s'.capacity = s.capacity
  online : s'.online = s.online
  sequence : s'.sequence = s.sequence

variable {answers}

theorem SameSettings.trans {s s' s'' : SimulatedStation} (h : SameSettings s s')
    (h' : SameSettings s' s'') : SameSettings s s'' :=
  ⟨h'.station.trans h.station, h'.capacity.trans h.capacity, h'.online.trans h.online,
    h'.sequence.trans h.sequence⟩

variable (answers) in
theorem flush_settings (s : SimulatedStation) : SameSettings s (s.flush answers) := by
  fun_induction flush answers s with
  | case1 s h => exact ⟨rfl, rfl, rfl, rfl⟩
  | case2 s event rest h hoffline => exact ⟨rfl, rfl, rfl, rfl⟩
  | case3 s event rest h honline s' accepted hdeliver hrefused =>
    obtain ⟨rfl, -⟩ := Prod.mk.inj hdeliver
    exact ⟨rfl, rfl, rfl, rfl⟩
  | case4 s event rest h honline s' accepted hdeliver haccepted ih =>
    obtain ⟨rfl, -⟩ := Prod.mk.inj hdeliver
    exact ⟨ih.station, ih.capacity, ih.online, ih.sequence⟩

theorem flush_buffer (s : SimulatedStation) :
    (s.flush answers).buffer = if s.online then s.buffer.flush answers else s.buffer := by
  fun_induction flush answers s with
  | case1 s h =>
    have hpending : s.buffer.pending = [] := h
    rw [RetryBuffer.flush_nil hpending, ite_self]
  | case2 s event rest h hoffline =>
    have honline : s.online = false := by simpa using hoffline
    rw [honline]
    rfl
  | case3 s event rest h honline s' accepted hdeliver hrefused =>
    obtain ⟨rfl, rfl⟩ := Prod.mk.inj hdeliver
    have hpending : s.buffer.pending = event :: rest := h
    have hanswer : answers s.attempts.length = false := by simpa using hrefused
    rw [if_pos (by simpa using honline), RetryBuffer.flush_refused hpending hanswer]
    simp [buffer, hanswer]
  | case4 s event rest h honline s' accepted hdeliver haccepted ih =>
    obtain ⟨rfl, rfl⟩ := Prod.mk.inj hdeliver
    have hpending : s.buffer.pending = event :: rest := h
    have hanswer : answers s.attempts.length = true := by simpa using haccepted
    have hon : s.online = true := by simpa using honline
    rw [ih, if_pos hon, if_pos hon, RetryBuffer.flush_accepted hpending hanswer]
    simp [buffer, hanswer]

variable (answers) in
theorem deliverNow_settings (s : SimulatedStation) (event : StationEvent) :
    SameSettings s (s.deliverNow answers event).1 := by
  unfold deliverNow
  split <;> exact ⟨rfl, rfl, rfl, rfl⟩

theorem keep_settings (s : SimulatedStation) (event : StationEvent) :
    SameSettings s (s.keep event).1 := by
  unfold keep
  split
  · exact ⟨rfl, rfl, rfl, rfl⟩
  · split <;> exact ⟨rfl, rfl, rfl, rfl⟩

theorem keep_buffer (s : SimulatedStation) (event : StationEvent) :
    (s.keep event).1.buffer =
      s.buffer.keep s.capacity (event.eventType == .heartbeat) event := by
  unfold keep RetryBuffer.keep giveUp
  by_cases hbeat : event.eventType = .heartbeat
  · simp [hbeat, buffer]
  · by_cases hfull : s.pending.length ≥ s.capacity <;> simp [hbeat, hfull, buffer]

variable (answers) in
/-- `emit` after its flush: the event is offered if nothing is pending. -/
def settle (s : SimulatedStation) (event : StationEvent) : SimulatedStation :=
  if (s.deliverNow answers event).2 then (s.deliverNow answers event).1
  else ((s.deliverNow answers event).1.keep event).1

variable (answers) in
theorem settle_settings (s : SimulatedStation) (event : StationEvent) :
    SameSettings s (s.settle answers event) := by
  have hdeliver := deliverNow_settings answers s event
  unfold settle
  split
  · exact hdeliver
  · exact hdeliver.trans (keep_settings _ event)

theorem settle_buffer (s : SimulatedStation) (event : StationEvent) :
    (s.settle answers event).buffer =
      if s.online && s.buffer.pending.isEmpty then
        s.buffer.offer answers s.capacity (event.eventType == .heartbeat) event
      else s.buffer.keep s.capacity (event.eventType == .heartbeat) event := by
  have hcapacity := (deliverNow_settings answers s event).capacity
  have hpending : s.buffer.pending = s.pending := rfl
  unfold settle
  rw [hpending]
  cases hnow : s.online && s.pending.isEmpty with
  | false =>
    have he : s.deliverNow answers event = (s, false) := by simp [deliverNow, hnow]
    rw [he]
    exact keep_buffer s event
  | true =>
    have he : s.deliverNow answers event = s.deliver answers event := by simp [deliverNow, hnow]
    have hattempts : s.buffer.attempts = s.attempts := rfl
    rw [he] at hcapacity ⊢
    unfold RetryBuffer.offer
    rw [hattempts]
    cases hanswer : answers s.attempts.length with
    | true => simp [deliver, hanswer, buffer]
    | false =>
      have hrefused : (s.deliver answers event).2 = false := hanswer
      rw [hrefused]
      simp only [Bool.false_eq_true, if_false, keep_buffer, hcapacity]
      simp [deliver, hanswer, buffer]

/-- `emit` takes the next number, flushes and settles the event. -/
theorem emit_eq (s : SimulatedStation) (kind : InputKind) (source value : Int) :
    (s.emit answers kind source value).1 =
      (flush answers { s with
        localValues := fun key => if key = source then some value else s.localValues key
        sequence := s.sequence + 1 }).settle answers (s.event kind source value) := by
  unfold emit settle
  simp only
  split <;> rfl

variable (answers) in
theorem emit_settings (s : SimulatedStation) (kind : InputKind) (source value : Int) :
    SameSettings { s with sequence := s.sequence + 1 } (s.emit answers kind source value).1 := by
  rw [emit_eq]
  have hflush := flush_settings answers { s with
    localValues := fun key => if key = source then some value else s.localValues key
    sequence := s.sequence + 1 }
  obtain ⟨hstation, hcapacity, honline, hsequence⟩ :=
    hflush.trans (settle_settings answers _ (s.event kind source value))
  exact ⟨hstation, hcapacity, honline, hsequence⟩

/-- As a buffer, the station that emits an event submits it. -/
theorem emit_buffer (s : SimulatedStation) (kind : InputKind) (source value : Int) :
    (s.emit answers kind source value).1.buffer =
      s.buffer.submit answers s.online s.capacity (kind == .heartbeat)
        (s.event kind source value) := by
  have hflush := flush_settings answers { s with
    localValues := fun key => if key = source then some value else s.localValues key
    sequence := s.sequence + 1 }
  rw [emit_eq, settle_buffer, flush_buffer, hflush.capacity, hflush.online]
  show (if s.online && (if s.online then _ else s.buffer).pending.isEmpty then _ else _) = _
  unfold RetryBuffer.submit
  cases s.online <;> rfl

end SimulatedStation

end KaizenStation.Backend
