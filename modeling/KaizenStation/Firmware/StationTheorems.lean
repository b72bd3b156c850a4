/-
KaizenStation.Firmware.StationTheorems — what the drivers report reaches the
state manager.

`settled` is the state manager once it has processed everything that is
queued. Receiving does not change it, and a report that is queued changes it
at once; so it can be compared with the drivers after every act
(`Tracks.step`), whatever the queue had to refuse. With nothing of a source
in the queue, `settled` is the state manager itself.

The encoder counts an edge even when the queue refuses its report, and does
not offer it again. Its value is tracked from the last edge on whose poll the
queue had room.
-/
import KaizenStation.Firmware.ApplicationTheorems
import KaizenStation.Firmware.DriverTheorems
import KaizenStation.Firmware.StateManagerTheorems
import KaizenStation.Firmware.Station

namespace KaizenStation.Firmware

open KaizenStation.Foundation

/-! ## Agreement -/

/-- What is posted from outside is no driver's report. -/
def Act.Foreign : Act → Prop
  | .post event => event.Foreign
  | _ => True

namespace Station

/-- The logical state once the queue has been processed. -/
def settled (s : Station) : StateManager :=
  s.eventQueue.items.foldl StateManager.handleEvent s.application.stateManager

/-- What reports are made of, which no act changes. -/
structure Wired (s : Station) : Prop where
  button : buttonInput₀.SameWiring s.buttonInput
  toggle : toggleInput₀.SameWiring s.toggleInput
  encoder : s.rotaryEncoder.sourceId = 3
  analog : s.analogInput.sourceId = 4
  queued : ∀ e ∈ s.eventQueue.items, e.Wired

/-- The last poll of the encoder that counted an edge. -/
def lastCounted (s : Station) : Option EncoderPoll := (s.polls.filter (·.counted)).getLast?

/-- The last poll that counted an edge and found room to report the count. -/
def lastReported (s : Station) : Option EncoderPoll :=
  (s.polls.filter fun poll => poll.counted && poll.room).getLast?

/-- The settled state agrees with the drivers. -/
structure Agrees (s : Station) : Prop where
  button : s.buttonInput.initialEventPending = false →
    s.settled.buttonState = s.buttonInput.state
  toggle : s.toggleInput.initialEventPending = false →
    s.settled.toggleState = s.toggleInput.state
  analog : s.analogInput.initialEventPending = false →
    s.settled.analogValue = s.analogInput.valuePercent
  encoder : (∀ poll, s.lastCounted = some poll → poll.room = true) →
    s.settled.encoderValue = s.rotaryEncoder.count

structure Tracks (p : Platform) (mutex : Bool) (s : Station) : Prop where
  ready : Application.Ready p OFFLINE_EVENT_QUEUE_SIZE mutex s.application
  wired : s.Wired
  agrees : s.Agrees

/-! ## Reports -/

theorem reported_button {d : DigitalInput} (h : buttonInput₀.SameWiring d) (b : Bool)
    (stamp : UInt64) : (d.stateEvent b stamp).Reported := by
  rw [DigitalInput.stateEvent_wiring h]
  cases b <;> exact ⟨rfl, rfl⟩

theorem reported_toggle {d : DigitalInput} (h : toggleInput₀.SameWiring d) (b : Bool)
    (stamp : UInt64) : (d.stateEvent b stamp).Reported := by
  rw [DigitalInput.stateEvent_wiring h]
  cases b
  · exact ⟨rfl, .inl rfl⟩
  · exact ⟨rfl, .inr rfl⟩

theorem reported_encoder {e : RotaryEncoder} (h : e.sourceId = 3) (stamp : UInt64) :
    (e.countEvent stamp).Reported := h

theorem reported_analog {a : AnalogInput} (h : a.sourceId = 4) (rawValue : Int32)
    (stamp : UInt64) : (a.valueEvent (AnalogInput.rawToPercent rawValue) stamp).Reported :=
  ⟨h, AnalogInput.rawToPercent_range rawValue⟩

theorem handleEvent_button {d : DigitalInput} (h : buttonInput₀.SameWiring d) (b : Bool)
    (stamp : UInt64) (m : StateManager) :
    m.handleEvent (d.stateEvent b stamp) = { m with buttonState := b } := by
  rw [DigitalInput.stateEvent_wiring h]
  cases b <;> rfl

theorem handleEvent_toggle {d : DigitalInput} (h : toggleInput₀.SameWiring d) (b : Bool)
    (stamp : UInt64) (m : StateManager) :
    m.handleEvent (d.stateEvent b stamp) = { m with toggleState := b } := by
  rw [DigitalInput.stateEvent_wiring h]
  cases b <;> rfl

/-! ## The settled state after each act -/

theorem settled_append {s s' : Station} {event : Event}
    (hq : s'.eventQueue.items = s.eventQueue.items ++ [event])
    (ha : s'.application = s.application) :
    s'.settled = s.settled.handleEvent event := by
  rw [settled, settled, hq, ha, List.foldl_append]
  rfl

theorem settled_same {s s' : Station} (hq : s'.eventQueue = s.eventQueue)
    (ha : s'.application.stateManager = s.application.stateManager) :
    s'.settled = s.settled := by
  rw [settled, settled, hq, ha]

theorem queued_append {s : Station} (hw : s.Wired) {items : List Event} {event : Event}
    (hi : items = s.eventQueue.items ++ [event]) (he : event.Wired) :
    ∀ e ∈ items, e.Wired := by
  intro e hmem
  rw [hi, List.mem_append, List.mem_singleton] at hmem
  rcases hmem with hmem | rfl
  · exact hw.queued e hmem
  · exact he

variable {p : Platform} {mutex : Bool}

theorem Tracks.pollButton {s : Station} (h : Tracks p mutex s) (level : Nat) (reading : UInt64) :
    Tracks p mutex (s.pollButton level reading) := by
  obtain ⟨hwire, hcases⟩ :=
    s.buttonInput.update_cases s.eventQueue level s.nowMs (s.tick reading)
  have hwire' : buttonInput₀.SameWiring (s.pollButton level reading).buttonInput :=
    h.wired.button.trans hwire
  rcases hcases with ⟨hq, hstable, hpending⟩ | ⟨_, hitems, hstable, hpending⟩
  · have hset : (s.pollButton level reading).settled = s.settled := settled_same hq rfl
    refine ⟨h.ready, ⟨hwire', h.wired.toggle, h.wired.encoder, h.wired.analog, ?_⟩,
      ⟨fun hp => ?_, fun hp => ?_, fun hp => ?_, fun hp => ?_⟩⟩
    · exact fun e he => h.wired.queued e (hq ▸ he)
    · rw [hset]
      exact (h.agrees.button (hpending.symm.trans hp)).trans hstable.symm
    · rw [hset]; exact h.agrees.toggle hp
    · rw [hset]; exact h.agrees.analog hp
    · rw [hset]; exact h.agrees.encoder hp
  · have hset : (s.pollButton level reading).settled = s.settled.handleEvent _ :=
      settled_append hitems rfl
    rw [handleEvent_button h.wired.button] at hset
    refine ⟨h.ready, ⟨hwire', h.wired.toggle, h.wired.encoder, h.wired.analog, ?_⟩,
      ⟨fun _ => ?_, fun hp => ?_, fun hp => ?_, fun hp => ?_⟩⟩
    · exact queued_append h.wired hitems (.inl (reported_button h.wired.button _ _))
    · rw [hset]; exact hstable.symm
    · rw [hset]; exact h.agrees.toggle hp
    · rw [hset]; exact h.agrees.analog hp
    · rw [hset]; exact h.agrees.encoder hp

theorem Tracks.pollToggle {s : Station} (h : Tracks p mutex s) (level : Nat) (reading : UInt64) :
    Tracks p mutex (s.pollToggle level reading) := by
  obtain ⟨hwire, hcases⟩ :=
    s.toggleInput.update_cases s.eventQueue level s.nowMs (s.tick reading)
  have hwire' : toggleInput₀.SameWiring (s.pollToggle level reading).toggleInput :=
    h.wired.toggle.trans hwire
  rcases hcases with ⟨hq, hstable, hpending⟩ | ⟨_, hitems, hstable, hpending⟩
  · have hset : (s.pollToggle level reading).settled = s.settled := settled_same hq rfl
    refine ⟨h.ready, ⟨h.wired.button, hwire', h.wired.encoder, h.wired.analog, ?_⟩,
      ⟨fun hp => ?_, fun hp => ?_, fun hp => ?_, fun hp => ?_⟩⟩
    · exact fun e he => h.wired.queued e (hq ▸ he)
    · rw [hset]; exact h.agrees.button hp
    · rw [hset]
      exact (h.agrees.toggle (hpending.symm.trans hp)).trans hstable.symm
    · rw [hset]; exact h.agrees.analog hp
    · rw [hset]; exact h.agrees.encoder hp
  · have hset : (s.pollToggle level reading).settled = s.settled.handleEvent _ :=
      settled_append hitems rfl
    rw [handleEvent_toggle h.wired.toggle] at hset
    refine ⟨h.ready, ⟨h.wired.button, hwire', h.wired.encoder, h.wired.analog, ?_⟩,
      ⟨fun hp => ?_, fun _ => ?_, fun hp => ?_, fun hp => ?_⟩⟩
    · exact queued_append h.wired hitems (.inl (reported_toggle h.wired.toggle _ _))
    · rw [hset]; exact h.agrees.button hp
    · rw [hset]; exact hstable.symm
    · rw [hset]; exact h.agrees.analog hp
    · rw [hset]; exact h.agrees.encoder hp

theorem Tracks.pollAnalog {s : Station} (h : Tracks p mutex s) (sample : Option Int32) :
    Tracks p mutex (s.pollAnalog sample) := by
  obtain ⟨hsource, hcases⟩ := s.analogInput.update_cases s.eventQueue sample s.nowMs
  have hsource' : (s.pollAnalog sample).analogInput.sourceId = 4 := hsource.trans h.wired.analog
  rcases hcases with ⟨hq, hsame⟩ | ⟨rawValue, _, _, hitems, hstable, hpending⟩
  · have hset : (s.pollAnalog sample).settled = s.settled := settled_same hq rfl
    have hsame' : (s.pollAnalog sample).analogInput = s.analogInput := hsame
    refine ⟨h.ready, ⟨h.wired.button, h.wired.toggle, h.wired.encoder, hsource', ?_⟩,
      ⟨fun hp => ?_, fun hp => ?_, fun hp => ?_, fun hp => ?_⟩⟩
    · exact fun e he => h.wired.queued e (hq ▸ he)
    · rw [hset]; exact h.agrees.button hp
    · rw [hset]; exact h.agrees.toggle hp
    · rw [hset, hsame']; exact h.agrees.analog (hsame' ▸ hp)
    · rw [hset]; exact h.agrees.encoder hp
  · have hset : (s.pollAnalog sample).settled = s.settled.handleEvent _ :=
      settled_append hitems rfl
    refine ⟨h.ready, ⟨h.wired.button, h.wired.toggle, h.wired.encoder, hsource', ?_⟩,
      ⟨fun hp => ?_, fun hp => ?_, fun _ => ?_, fun hp => ?_⟩⟩
    · exact queued_append h.wired hitems (.inl (reported_analog h.wired.analog _ _))
    · rw [hset]; exact h.agrees.button hp
    · rw [hset]; exact h.agrees.toggle hp
    · rw [hset]; exact hstable.symm
    · rw [hset]; exact h.agrees.encoder hp

theorem lastCounted_append {s s' : Station} {poll : EncoderPoll}
    (h : s'.polls = s.polls ++ [poll]) :
    s'.lastCounted = if poll.counted then some poll else s.lastCounted := by
  rw [lastCounted, h, List.filter_append]
  cases hcounted : poll.counted <;> simp [hcounted, lastCounted]

theorem lastReported_append {s s' : Station} {poll : EncoderPoll}
    (h : s'.polls = s.polls ++ [poll]) :
    s'.lastReported = if poll.counted && poll.room then some poll else s.lastReported := by
  rw [lastReported, h, List.filter_append]
  cases hreported : poll.counted && poll.room <;> simp [hreported, lastReported]

/-- A poll of the encoder counts nothing, or queues the new count, or counts
and finds the queue full. -/
theorem pollEncoder_cases (s : Station) (levelA levelB : Nat) :
    ((s.pollEncoder levelA levelB).eventQueue = s.eventQueue ∧
      (s.pollEncoder levelA levelB).rotaryEncoder.count = s.rotaryEncoder.count ∧
      ∃ room, (s.pollEncoder levelA levelB).polls =
        s.polls ++ [⟨false, room, s.rotaryEncoder.count⟩]) ∨
    ((s.pollEncoder levelA levelB).eventQueue.items = s.eventQueue.items ++
        [(s.pollEncoder levelA levelB).rotaryEncoder.countEvent s.nowMs] ∧
      (s.pollEncoder levelA levelB).polls =
        s.polls ++ [⟨true, true, (s.pollEncoder levelA levelB).rotaryEncoder.count⟩]) ∨
    ((s.pollEncoder levelA levelB).eventQueue = s.eventQueue ∧
      (s.pollEncoder levelA levelB).polls =
        s.polls ++ [⟨true, false, (s.pollEncoder levelA levelB).rotaryEncoder.count⟩] ∧
      (s.pollEncoder levelA levelB).rotaryEncoder.count ≠ s.rotaryEncoder.count ∧
      ¬ s.eventQueue.items.length < s.eventQueue.capacity) := by
  have hpolls : (s.pollEncoder levelA levelB).polls = s.polls ++
      [⟨(s.pollEncoder levelA levelB).rotaryEncoder.count != s.rotaryEncoder.count,
        decide (s.eventQueue.items.length < s.eventQueue.capacity),
        (s.pollEncoder levelA levelB).rotaryEncoder.count⟩] := rfl
  obtain ⟨-, ⟨hq, hcount⟩ | ⟨hcount, hq⟩⟩ :=
    s.rotaryEncoder.update_cases s.eventQueue levelA levelB s.nowMs
  · have hcount' : (s.pollEncoder levelA levelB).rotaryEncoder.count = s.rotaryEncoder.count :=
      hcount
    rw [hcount', bne_self_eq_false] at hpolls
    exact .inl ⟨hq, hcount', _, hpolls⟩
  · have hcounted : ((s.pollEncoder levelA levelB).rotaryEncoder.count !=
        s.rotaryEncoder.count) = true := bne_iff_ne.mpr hcount
    rw [hcounted] at hpolls
    rcases s.eventQueue.send_cases
        ((s.pollEncoder levelA levelB).rotaryEncoder.countEvent s.nowMs) with
      ⟨hroom, -, hitems⟩ | ⟨hfull, -, hsame⟩
    · rw [decide_eq_true hroom] at hpolls
      exact .inr (.inl ⟨(congrArg EventQueue.items hq).trans hitems, hpolls⟩)
    · rw [decide_eq_false hfull] at hpolls
      exact .inr (.inr ⟨hq.trans hsame, hpolls, hcount, hfull⟩)

theorem pollEncoder_source {s : Station} (h : s.rotaryEncoder.sourceId = 3) (levelA levelB : Nat) :
    (s.pollEncoder levelA levelB).rotaryEncoder.sourceId = 3 :=
  (s.rotaryEncoder.update_cases s.eventQueue levelA levelB s.nowMs).1.trans h

theorem Tracks.pollEncoder {s : Station} (h : Tracks p mutex s) (levelA levelB : Nat) :
    Tracks p mutex (s.pollEncoder levelA levelB) := by
  have hsource := pollEncoder_source h.wired.encoder levelA levelB
  rcases pollEncoder_cases s levelA levelB with ⟨hq, hcount, room, hpolls⟩ | ⟨hitems, -⟩ |
    ⟨hq, hpolls, -⟩
  · have hset : (s.pollEncoder levelA levelB).settled = s.settled := settled_same hq rfl
    refine ⟨h.ready, ⟨h.wired.button, h.wired.toggle, hsource, h.wired.analog, ?_⟩,
      ⟨fun hp => ?_, fun hp => ?_, fun hp => ?_, fun hp => ?_⟩⟩
    · exact fun e he => h.wired.queued e (hq ▸ he)
    · rw [hset]; exact h.agrees.button hp
    · rw [hset]; exact h.agrees.toggle hp
    · rw [hset]; exact h.agrees.analog hp
    · rw [hset, hcount]
      rw [lastCounted_append hpolls] at hp
      exact h.agrees.encoder hp
  · have hset : (s.pollEncoder levelA levelB).settled = s.settled.handleEvent _ :=
      settled_append hitems rfl
    refine ⟨h.ready, ⟨h.wired.button, h.wired.toggle, hsource, h.wired.analog, ?_⟩,
      ⟨fun hp => ?_, fun hp => ?_, fun hp => ?_, fun _ => ?_⟩⟩
    · exact queued_append h.wired hitems (.inl (reported_encoder hsource _))
    · rw [hset]; exact h.agrees.button hp
    · rw [hset]; exact h.agrees.toggle hp
    · rw [hset]; exact h.agrees.analog hp
    · rw [hset]; rfl
  · -- the count moved on, but this poll had no room and nothing is claimed
    have hset : (s.pollEncoder levelA levelB).settled = s.settled := settled_same hq rfl
    refine ⟨h.ready, ⟨h.wired.button, h.wired.toggle, hsource, h.wired.analog, ?_⟩,
      ⟨fun hp => ?_, fun hp => ?_, fun hp => ?_, fun hp => ?_⟩⟩
    · exact fun e he => h.wired.queued e (hq ▸ he)
    · rw [hset]; exact h.agrees.button hp
    · rw [hset]; exact h.agrees.toggle hp
    · rw [hset]; exact h.agrees.analog hp
    · rw [lastCounted_append hpolls] at hp
      cases hp _ rfl

theorem Tracks.post {s : Station} (h : Tracks p mutex s) {event : Event} (he : event.Foreign) :
    Tracks p mutex (s.step p (.post event)) := by
  rcases s.eventQueue.send_cases event with ⟨_, _, hitems⟩ | ⟨_, _, hsame⟩
  · have hset : (s.step p (.post event)).settled = s.settled.handleEvent event :=
      settled_append hitems rfl
    obtain ⟨hb, ht, hen, han⟩ := StateManager.handleEvent_foreign he.type s.settled
    refine ⟨h.ready, ⟨h.wired.button, h.wired.toggle, h.wired.encoder, h.wired.analog, ?_⟩,
      ⟨fun hp => ?_, fun hp => ?_, fun hp => ?_, fun hp => ?_⟩⟩
    · exact queued_append h.wired hitems (.inr he)
    · rw [hset, hb]; exact h.agrees.button hp
    · rw [hset, ht]; exact h.agrees.toggle hp
    · rw [hset, han]; exact h.agrees.analog hp
    · rw [hset, hen]; exact h.agrees.encoder hp
  · have hsame' : s.step p (.post event) = s := by
      show { s with eventQueue := (s.eventQueue.send event).1 } = s
      rw [hsame]
    rw [hsame']
    exact h

/-- An act that touches no driver and settles to the same state. -/
theorem Tracks.central_of {s s' : Station} (h : Tracks p mutex s)
    (hready : Application.Ready p OFFLINE_EVENT_QUEUE_SIZE mutex s'.application)
    (hset : s'.settled = s.settled) (hitems : s'.eventQueue.items <:+ s.eventQueue.items)
    (hdrivers : s'.buttonInput = s.buttonInput ∧ s'.toggleInput = s.toggleInput ∧
      s'.rotaryEncoder = s.rotaryEncoder ∧ s'.analogInput = s.analogInput ∧ s'.polls = s.polls) :
    Tracks p mutex s' := by
  obtain ⟨hb, ht, he, ha, hp⟩ := hdrivers
  refine ⟨hready, ⟨?_, ?_, ?_, ?_, fun e hmem => h.wired.queued e (hitems.subset hmem)⟩,
    ⟨?_, ?_, ?_, ?_⟩⟩
  · rw [hb]; exact h.wired.button
  · rw [ht]; exact h.wired.toggle
  · rw [he]; exact h.wired.encoder
  · rw [ha]; exact h.wired.analog
  · rw [hb, hset]; exact h.agrees.button
  · rw [ht, hset]; exact h.agrees.toggle
  · rw [ha, hset]; exact h.agrees.analog
  · rw [he, hset, lastCounted, hp]; exact h.agrees.encoder

/-- The central task takes events off the queue without changing what the
state settles to. -/
theorem Tracks.central {s : Station} (h : Tracks p mutex s) (freeHeap : UInt32) :
    Tracks p mutex (s.central p freeHeap) := by
  unfold Station.central
  split
  · cases hq : s.eventQueue.items with
    | nil =>
      have hrec : s.receive p = { s with loopPoint := .flush } := by
        simp [receive, EventQueue.receive_nil hq]
      rw [hrec]
      exact h.central_of h.ready rfl (List.suffix_refl _) ⟨rfl, rfl, rfl, rfl, rfl⟩
    | cons event rest =>
      obtain ⟨hev, hrest, -⟩ := EventQueue.receive_cons hq
      have happ : (s.receive p).application = s.application.processEvent p event := by
        simp [receive, hev]
      have hproc := Application.processEvent_processed h.ready event
      refine h.central_of (happ ▸ hproc.ready) ?_ ?_ ⟨rfl, rfl, rfl, rfl, rfl⟩
      · show (s.eventQueue.receive.1.items).foldl _ (s.receive p).application.stateManager = _
        rw [happ, hproc.stateManager, hrest, settled, hq]
        rfl
      · show s.eventQueue.receive.1.items <:+ s.eventQueue.items
        rw [hrest, hq]
        exact List.suffix_cons _ _
  · have hf := Application.flushIfPending_advances h.ready []
    refine h.central_of hf.ready (settled_same rfl hf.untouched.stateManager) (List.suffix_refl _)
      ⟨rfl, rfl, rfl, rfl, rfl⟩
  · unfold heartbeat
    split
    · have hproc := Application.processEvent_processed h.ready
        (Application.heartbeat s.nowMs freeHeap)
      exact h.central_of hproc.ready (settled_same rfl hproc.stateManager) (List.suffix_refl _)
        ⟨rfl, rfl, rfl, rfl, rfl⟩
    · exact h.central_of h.ready rfl (List.suffix_refl _) ⟨rfl, rfl, rfl, rfl, rfl⟩

/-- The central task touches no driver. -/
theorem central_drivers (p : Platform) (s : Station) (freeHeap : UInt32) :
    (s.central p freeHeap).buttonInput = s.buttonInput ∧
    (s.central p freeHeap).toggleInput = s.toggleInput ∧
    (s.central p freeHeap).rotaryEncoder = s.rotaryEncoder ∧
    (s.central p freeHeap).analogInput = s.analogInput ∧
    (s.central p freeHeap).polls = s.polls := by
  unfold central heartbeat
  split
  · exact ⟨rfl, rfl, rfl, rfl, rfl⟩
  · exact ⟨rfl, rfl, rfl, rfl, rfl⟩
  · split <;> exact ⟨rfl, rfl, rfl, rfl, rfl⟩

/-! ## Runs -/

theorem Tracks.step {s : Station} (h : Tracks p mutex s) {act : Act} (hact : act.Foreign) :
    Tracks p mutex (s.step p act) := by
  cases act with
  | wait reading => exact h.central_of h.ready rfl (List.suffix_refl _) ⟨rfl, rfl, rfl, rfl, rfl⟩
  | pollButton level reading => exact h.pollButton level reading
  | pollToggle level reading => exact h.pollToggle level reading
  | pollEncoder levelA levelB => exact h.pollEncoder levelA levelB
  | pollAnalog sample => exact h.pollAnalog sample
  | post event => exact h.post hact
  | central freeHeap => exact h.central freeHeap

theorem boot_tracks (p : Platform) (r : Readings) (mutex : Bool) :
    Tracks p mutex (boot r mutex) := by
  refine ⟨Application.boot_ready p _ mutex {}, ⟨⟨rfl, rfl, rfl, rfl⟩, ⟨rfl, rfl, rfl, rfl⟩, rfl,
    rfl, ?_⟩, ⟨fun h => ?_, fun h => ?_, fun h => ?_, fun _ => rfl⟩⟩
  · intro e he
    cases he
  · cases h
  · cases h
  · cases h

theorem Tracks.run {s : Station} (h : Tracks p mutex s) {acts : List Act}
    (hacts : ∀ act ∈ acts, act.Foreign) : Tracks p mutex (s.run p acts) := by
  induction acts generalizing s with
  | nil => exact h
  | cons act acts ih =>
    have hstep := h.step (hacts act List.mem_cons_self)
    exact ih hstep fun a ha => hacts a (List.mem_cons_of_mem _ ha)

end Station

end KaizenStation.Firmware
