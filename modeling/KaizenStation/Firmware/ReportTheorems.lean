/-
KaizenStation.Firmware.ReportTheorems — the last report of a driver, wherever
it is.

What the queue took from a driver is not lost before the central task has
numbered it. So the last value of an input among the numbered and the queued
events is what the driver last reported (`Sensor.truthful_run`), and once none
of them waits in the queue or in the store it is the last value MQTT accepted
(`Sensor.last_accepted`). None of this depends on what the state manager was
before the first report.
-/
import KaizenStation.Firmware.SourceTheorems
import KaizenStation.Firmware.StationRunTheorems

namespace KaizenStation.Firmware

open KaizenStation.Foundation

/-! ## The application of a running station -/

namespace Application

variable {p : Platform} {capacity : Nat} {a : Application}

theorem Fed.processEvent (h : Fed p capacity a) {event : Event} (he : event.Produced)
    (ht : shouldPublish event = true → event.timestampMs.toNat < 10 ^ 15) :
    Fed p capacity (a.processEvent p event) := by
  have hstep := processEvent_processed h.ready event
  have hissued : ∀ e ∈ (a.processEvent p event).issued, e ∈ a.issued ∨
      shouldPublish event = true ∧ e = { event with sequenceId := a.nextSequenceId } := by
    intro e he
    rw [hstep.issued, List.mem_append] at he
    rcases he with he | he
    · exact .inl he
    · split at he
      · next hpub => exact .inr ⟨hpub, List.mem_singleton.mp he⟩
      · cases he
  refine ⟨hstep.ready, h.sound.steps hstep.steps,
    fun source => (h.current source).steps hstep.steps, fun e hmem => ?_, fun e hmem => ?_⟩
  · rcases hissued e hmem with hold | ⟨hpub, rfl⟩
    · exact h.issued e hold
    · have hwired : Event.Wired { event with sequenceId := a.nextSequenceId } :=
        he.wired.imp (fun h => h) (fun h => ⟨h.type, h.source⟩)
      exact ⟨⟨hwired, he.noFault, he.noSync⟩, ht hpub⟩
  · rcases hissued e hmem with hold | ⟨hpub, rfl⟩
    · exact h.published e hold
    · exact hpub

theorem Fed.flushIfPending (h : Fed p capacity a) : Fed p capacity (a.flushIfPending p) := by
  have hflush := flushIfPending_advances h.ready []
  have hissued := hflush.untouched.issued
  refine ⟨hflush.ready, h.sound.steps hflush.steps,
    fun source => (h.current source).steps hflush.steps, ?_, ?_⟩
  · rw [hissued]
    exact h.issued
  · rw [hissued]
    exact h.published

theorem boot_fed (p : Platform) (capacity : Nat) (led : LedDriver) :
    Fed p capacity (boot (OfflineEventStore.create capacity) led) := by
  refine ⟨boot_ready p capacity true led, Outbox.sound_empty, fun _ _ => rfl, ?_, ?_⟩
  · intro e he
    cases he
  · intro e he
    cases he

end Application

theorem Event.Reported.produced {event : Event} (h : event.Reported) : event.Produced := by
  refine ⟨.inl h, ?_, ?_⟩ <;> intro ht <;> rw [Event.Reported, ht] at h <;> exact h

/-- What the managers post, and nothing that is published. -/
theorem Event.Foreign.produced {event : Event} (h : event.Foreign)
    (hpub : Application.shouldPublish event = false) : event.Produced := by
  refine ⟨.inr h, ?_, ?_⟩ <;> intro ht <;> simp [Application.shouldPublish, ht] at hpub

theorem heartbeat_produced (now : UInt64) (freeHeap : UInt32) :
    (Application.heartbeat now freeHeap).Produced :=
  ⟨.inr ⟨rfl, rfl⟩, by simp [Application.heartbeat], by simp [Application.heartbeat]⟩

/-- What MQTT may be offered, and the backend can read. -/
structure Event.Sendable (event : Event) : Prop where
  produced : event.Produced
  early : event.timestampMs.toNat < 10 ^ 15
  published : Application.shouldPublish event = true

/-! ## A healthy station -/

/-- The readings of the clock stay below 10^15 ms. -/
def Act.Early : Act → Prop
  | .wait reading | .pollButton _ reading | .pollToggle _ reading => reading.toNat < 10 ^ 15
  | _ => True

def Station.Readings.Early (r : Station.Readings) : Prop :=
  r.nowMs.toNat < 10 ^ 15 ∧ r.toggleReading.toNat < 10 ^ 15

namespace Station

variable {p : Platform}

theorem later_early {nowMs reading : UInt64} (h : nowMs.toNat < 10 ^ 15)
    (h' : reading.toNat < 10 ^ 15) : (later nowMs reading).toNat < 10 ^ 15 := by
  unfold later
  split <;> assumption

variable (p) in
/-- A station with a working mutex whose own parts are its only producers. -/
structure Healthy (s : Station) : Prop where
  tracks : Tracks p true s
  fed : Application.Fed p OFFLINE_EVENT_QUEUE_SIZE s.application
  queued : ∀ e ∈ s.eventQueue.items, e.Produced ∧
    (Application.shouldPublish e = true → e.timestampMs.toNat < 10 ^ 15)
  early : s.nowMs.toNat < 10 ^ 15

theorem step_early {s : Station} (h : s.nowMs.toNat < 10 ^ 15) {act : Act} (hact : act.Early) :
    (s.step p act).nowMs.toNat < 10 ^ 15 := by
  cases act with
  | wait reading => exact later_early h hact
  | pollButton level reading => exact later_early h hact
  | pollToggle level reading => exact later_early h hact
  | pollEncoder => exact h
  | pollAnalog => exact h
  | post => exact h
  | central freeHeap =>
    show (s.central p freeHeap).nowMs.toNat < 10 ^ 15
    unfold central heartbeat
    split
    · exact h
    · exact h
    · split <;> exact h

theorem Healthy.step {s : Station} (h : s.Healthy p) {act : Act} (hquiet : act.Quiet)
    (hact : act.Early) : (s.step p act).Healthy p := by
  have hearly : (s.step p act).nowMs.toNat < 10 ^ 15 := step_early h.early hact
  have htracks := h.tracks.step hquiet.foreign
  cases (h.tracks.moves hquiet).2 with
  | idle hq ha => exact ⟨htracks, ha ▸ h.fed, hq ▸ h.queued, hearly⟩
  | flushed hq ha => exact ⟨htracks, ha ▸ h.fed.flushIfPending, hq ▸ h.queued, hearly⟩
  | reported event hrep hstamp hq ha =>
    refine ⟨htracks, ha ▸ h.fed, fun e he => ?_, hearly⟩
    rw [hq, List.mem_append, List.mem_singleton] at he
    rcases he with he | rfl
    · exact h.queued e he
    · exact ⟨hrep.produced, fun _ => hstamp ▸ hearly⟩
  | posted event hfor hpub hq ha =>
    refine ⟨htracks, ha ▸ h.fed, fun e he => ?_, hearly⟩
    rw [hq, List.mem_append, List.mem_singleton] at he
    rcases he with he | rfl
    · exact h.queued e he
    · exact ⟨hfor.produced hpub, fun ht => by rw [hpub] at ht; cases ht⟩
  | received event rest hq hq' ha =>
    have hevent := h.queued event (hq ▸ List.mem_cons_self)
    refine ⟨htracks, ha ▸ h.fed.processEvent hevent.1 hevent.2, fun e he => ?_, hearly⟩
    exact h.queued e (hq ▸ List.mem_cons_of_mem _ (hq' ▸ he))
  | beat freeHeap _ _ _ hq ha =>
    exact ⟨htracks, ha ▸ h.fed.processEvent (heartbeat_produced _ _) fun _ => h.early,
      hq ▸ h.queued, hearly⟩

theorem Healthy.accepted_issued {s : Station} (h : s.Healthy p) :
    ∀ e ∈ s.application.accepted, e ∈ s.application.issued := fun _ he =>
  h.fed.sound.inOrder.subset (List.mem_append_left _ (List.mem_append_left _ he))

theorem Healthy.sendable {s : Station} (h : s.Healthy p) :
    ∀ e ∈ s.application.accepted, e.Sendable := by
  intro e he
  have hissued := h.accepted_issued e he
  obtain ⟨hproduced, hearly⟩ := h.fed.issued e hissued
  exact ⟨hproduced, hearly, h.fed.published e hissued⟩

/-- An act adds to what MQTT accepted, and to the payloads the texts of
that. -/
theorem Healthy.accepts {s : Station} (h : s.Healthy p) {act : Act} (hquiet : act.Quiet) :
    ∃ sent, (s.step p act).application.accepted = s.application.accepted ++ sent ∧
      (s.step p act).application.payloads = s.application.payloads ++ sent.map p.text := by
  obtain ⟨calls, hcalls⟩ := (h.tracks.moves hquiet).2.calls
  obtain ⟨hready, hsteps⟩ := Application.run_ready h.fed.ready calls
  rw [← hcalls] at hready hsteps
  obtain ⟨rest, hrest⟩ := hsteps.attempts_grow
  have hattempts : (s.step p act).application.attempts = s.application.attempts ++ rest :=
    hrest.symm
  have haccepted : (s.step p act).application.accepted =
      s.application.accepted ++ (rest.filter (·.2)).map (·.1) := by
    rw [Application.accepted, hattempts, List.filter_append, List.map_append]
    rfl
  refine ⟨_, haccepted, ?_⟩
  rw [hready.payloads, h.fed.ready.payloads, haccepted, List.map_append]

theorem boot_healthy (p : Platform) {r : Readings} (hr : r.Early) : (boot r).Healthy p := by
  refine ⟨boot_tracks p r true, Application.boot_fed p _ {}, ?_, later_early hr.1 hr.2⟩
  intro e he
  cases he

end Station

/-! ## The last report -/

namespace Input

variable {γ : Type} (i : Input γ)

theorem value?_other {event : Event} (h : event.Wired) (hs : event.sourceId ≠ i.source) :
    i.value? event = none := by
  cases hv : i.value? event with
  | none => rfl
  | some v => exact absurd ((i.ofSource event h).mp (by rw [hv]; rfl)) hs

/-- The last value among the events that were numbered and those that are
queued. -/
def lastReport (s : Station) : Option γ :=
  lastWrite i.value? (s.application.issued ++ s.eventQueue.items)

variable {i} {s s' : Station}

theorem lastReport_same (hq : s'.eventQueue.items = s.eventQueue.items)
    (ha : s'.application.issued = s.application.issued) : i.lastReport s' = i.lastReport s := by
  rw [lastReport, lastReport, hq, ha]

theorem lastReport_append {event : Event}
    (hq : s'.eventQueue.items = s.eventQueue.items ++ [event])
    (ha : s'.application = s.application) :
    i.lastReport s' = (i.value? event).or (i.lastReport s) := by
  rw [lastReport, lastReport, hq, ha, ← List.append_assoc, lastWrite_append, lastWrite_cons]
  rfl

/-- An event is numbered if it says anything of an input. -/
theorem lastWrite_processed {p : Platform} {capacity : Nat} {mutex : Bool} {a : Application}
    {event : Event} (hr : Application.Ready p capacity mutex a) (hw : event.Wired) :
    lastWrite i.value? (a.processEvent p event).issued =
      (i.value? event).or (lastWrite i.value? a.issued) := by
  rw [(Application.processEvent_processed hr event).issued, lastWrite_append]
  cases hpub : Application.shouldPublish event with
  | true =>
    have hnumber := i.unnumbered event a.nextSequenceId
    rw [if_pos rfl, lastWrite_cons, hnumber, lastWrite_nil, Option.none_or]
  | false =>
    rw [i.value?_local hw hpub]
    rfl

/-- What the central task takes off the queue it numbers. -/
theorem lastReport_received {p : Platform} {capacity : Nat} {mutex : Bool} {event : Event}
    {rest : List Event} (hr : Application.Ready p capacity mutex s.application)
    (hw : event.Wired) (hq : s.eventQueue.items = event :: rest)
    (hq' : s'.eventQueue.items = rest)
    (ha : s'.application = s.application.processEvent p event) :
    i.lastReport s' = i.lastReport s := by
  rw [lastReport, lastReport, ha, hq, hq', lastWrite_append, lastWrite_append,
    lastWrite_processed hr hw, lastWrite_cons, Option.or_assoc]

/-- A heartbeat says nothing of an input. -/
theorem lastReport_beat {p : Platform} {capacity : Nat} {mutex : Bool} {now : UInt64}
    {freeHeap : UInt32} (hr : Application.Ready p capacity mutex s.application)
    (hq : s'.eventQueue.items = s.eventQueue.items)
    (ha : s'.application = s.application.processEvent p (Application.heartbeat now freeHeap)) :
    i.lastReport s' = i.lastReport s := by
  have hbeat : (Application.heartbeat now freeHeap).Foreign := ⟨rfl, rfl⟩
  rw [lastReport, lastReport, ha, hq, lastWrite_append, lastWrite_append,
    lastWrite_processed hr (.inr hbeat), i.value?_foreign hbeat, Option.none_or]

end Input

/-! ## Drivers that report -/

/-- The source an act polls; 0 if it polls none. -/
def Act.source : Act → UInt32
  | .pollButton _ _ => 1
  | .pollToggle _ _ => 2
  | .pollEncoder _ _ => 3
  | .pollAnalog _ => 4
  | _ => 0

namespace Station

variable {p : Platform} {mutex : Bool}

/-- A poll queues at most one report, and that is of its source. -/
theorem Tracks.polled {s : Station} (h : Tracks p mutex s) {act : Act} (hact : act.source ≠ 0) :
    (s.step p act).application = s.application ∧
      ((s.step p act).eventQueue.items = s.eventQueue.items ∨
        ∃ event, event.Reported ∧ event.sourceId = act.source ∧
          (s.step p act).eventQueue.items = s.eventQueue.items ++ [event]) := by
  cases act with
  | wait => exact absurd rfl hact
  | post => exact absurd rfl hact
  | central => exact absurd rfl hact
  | pollButton level reading =>
    refine ⟨rfl, ?_⟩
    obtain ⟨-, ⟨hq, -⟩ | ⟨-, hitems, -⟩⟩ :=
      s.buttonInput.update_cases s.eventQueue level s.nowMs (s.tick reading)
    · exact .inl (congrArg EventQueue.items hq)
    · exact .inr ⟨_, reported_button h.wired.button _ _, h.wired.button.sourceId, hitems⟩
  | pollToggle level reading =>
    refine ⟨rfl, ?_⟩
    obtain ⟨-, ⟨hq, -⟩ | ⟨-, hitems, -⟩⟩ :=
      s.toggleInput.update_cases s.eventQueue level s.nowMs (s.tick reading)
    · exact .inl (congrArg EventQueue.items hq)
    · exact .inr ⟨_, reported_toggle h.wired.toggle _ _, h.wired.toggle.sourceId, hitems⟩
  | pollEncoder levelA levelB =>
    refine ⟨rfl, ?_⟩
    have hsource := pollEncoder_source h.wired.encoder levelA levelB
    rcases pollEncoder_cases s levelA levelB with ⟨hq, -⟩ | ⟨hitems, -⟩ | ⟨hq, -⟩
    · exact .inl (congrArg EventQueue.items hq)
    · exact .inr ⟨_, reported_encoder hsource _, hsource, hitems⟩
    · exact .inl (congrArg EventQueue.items hq)
  | pollAnalog sample =>
    refine ⟨rfl, ?_⟩
    obtain ⟨-, ⟨hq, -⟩ | ⟨rawValue, -, -, hitems, -⟩⟩ :=
      s.analogInput.update_cases s.eventQueue sample s.nowMs
    · exact .inl (congrArg EventQueue.items hq)
    · exact .inr ⟨_, reported_analog h.wired.analog rawValue s.nowMs, h.wired.analog, hitems⟩

end Station

/-- An input with the driver that reports it: the value that the driver has
reported, if there is one. -/
structure Sensor (γ : Type) extends Input γ where
  reported? : Station → Option γ
  /-- A poll of the driver leaves what it has reported, or reports. -/
  own : ∀ (p : Platform) (mutex : Bool) (s : Station) (act : Act), Station.Tracks p mutex s →
    act.source = source →
      ((s.step p act).eventQueue.items = s.eventQueue.items ∧
        ∀ v, reported? (s.step p act) = some v → reported? s = some v) ∨
      ∃ event, (s.step p act).eventQueue.items = s.eventQueue.items ++ [event] ∧
        reported? (s.step p act) = value? event
  other : ∀ (p : Platform) (s : Station) (act : Act), act.source ≠ source →
    reported? (s.step p act) = reported? s
  fresh : ∀ (r : Station.Readings) (mutex : Bool), reported? (Station.boot r mutex) = none

namespace Sensor

variable {γ : Type} (sensor : Sensor γ) {p : Platform} {s : Station}

/-- What the driver has reported is the last report of its input. -/
def Truthful (s : Station) : Prop :=
  ∀ v, sensor.reported? s = some v → sensor.lastReport s = some v

theorem lastReport_central (h : s.Healthy p) (freeHeap : UInt32) :
    sensor.lastReport (s.step p (.central freeHeap)) = sensor.lastReport s := by
  show sensor.lastReport (s.central p freeHeap) = sensor.lastReport s
  unfold Station.central
  split
  · cases hq : s.eventQueue.items with
    | nil =>
      refine Input.lastReport_same ?_ ?_ <;> simp [Station.receive, EventQueue.receive_nil hq]
    | cons event rest =>
      obtain ⟨hevent, hrest, -⟩ := EventQueue.receive_cons hq
      have hwired := (h.queued event (hq ▸ List.mem_cons_self)).1.wired
      exact Input.lastReport_received h.fed.ready hwired hq hrest
        (by simp [Station.receive, hevent])
  · have hissued := (Application.flushIfPending_advances h.fed.ready []).untouched.issued
    exact Input.lastReport_same rfl hissued
  · unfold Station.heartbeat
    split
    · exact Input.lastReport_beat h.fed.ready rfl rfl
    · rfl

/-- Only a poll of the driver changes the last report of its input. -/
theorem lastReport_step (h : s.Healthy p) {act : Act} (hact : act.Quiet)
    (hother : act.source ≠ sensor.source) :
    sensor.lastReport (s.step p act) = sensor.lastReport s := by
  by_cases hpoll : act.source = 0
  · cases act with
    | wait => rfl
    | central freeHeap => exact sensor.lastReport_central h freeHeap
    | post event =>
      rcases s.eventQueue.send_cases event with ⟨-, -, hitems⟩ | ⟨-, -, hsame⟩
      · have hq : (s.step p (.post event)).eventQueue.items = s.eventQueue.items ++ [event] :=
          hitems
        rw [Input.lastReport_append hq rfl, sensor.value?_foreign hact.1, Option.none_or]
      · exact Input.lastReport_same (congrArg EventQueue.items hsame) rfl
    | _ => cases hpoll
  · obtain ⟨ha, hq | ⟨event, hrep, hsource, hq⟩⟩ := h.tracks.polled hpoll
    · exact Input.lastReport_same hq (congrArg Application.issued ha)
    · rw [Input.lastReport_append hq ha, sensor.value?_other (.inl hrep) (hsource ▸ hother),
        Option.none_or]

theorem truthful_step (h : s.Healthy p) (ht : sensor.Truthful s) {act : Act} (hact : act.Quiet) :
    sensor.Truthful (s.step p act) := by
  intro v hv
  by_cases hown : act.source = sensor.source
  · have hpoll : act.source ≠ 0 := hown ▸ sensor.physical
    have ha := (h.tracks.polled hpoll).1
    rcases sensor.own p true s act h.tracks hown with ⟨hq, hold⟩ | ⟨event, hq, hvalue⟩
    · rw [Input.lastReport_same hq (congrArg Application.issued ha)]
      exact ht v (hold v hv)
    · rw [Input.lastReport_append hq ha, ← hvalue, hv]
      rfl
  · rw [sensor.lastReport_step h hact hown]
    rw [sensor.other p s act hown] at hv
    exact ht v hv

/-- In every run a driver's last report is among the events that were numbered
or are queued, and nothing newer of its input is. -/
theorem truthful_run (h : s.Healthy p) (ht : sensor.Truthful s) {acts : List Act}
    (hacts : ∀ act ∈ acts, act.Quiet ∧ act.Early) :
    (s.run p acts).Healthy p ∧ sensor.Truthful (s.run p acts) := by
  induction acts generalizing s with
  | nil => exact ⟨h, ht⟩
  | cons act acts ih =>
    obtain ⟨hquiet, hearly⟩ := hacts act List.mem_cons_self
    exact ih (h.step hquiet hearly) (sensor.truthful_step h ht hquiet) fun a ha =>
      hacts a (List.mem_cons_of_mem _ ha)

theorem truthful_boot (r : Station.Readings) : sensor.Truthful (Station.boot r) := by
  intro v hv
  rw [sensor.fresh r true] at hv
  cases hv

/-- With nothing of its input in the queue, what a driver has reported is the
last value of what MQTT accepted and what waits in the store. -/
theorem last_replayed (h : s.Healthy p) (ht : sensor.Truthful s) (hc : p.cjson.Standard)
    (halloc : ∀ k, (p.env k).allocated = true)
    (hqueue : ∀ e ∈ s.eventQueue.items, e.sourceId ≠ sensor.source) {v : γ}
    (hv : sensor.reported? s = some v) :
    lastWrite sensor.value? (s.application.accepted ++ s.application.offlineStore.events) =
      some v := by
  have hwired : ∀ e ∈ s.application.issued, e.Wired := fun e he => (h.fed.issued e he).1.wired
  have hline : ∀ e ∈ s.application.accepted ++ s.application.offlineStore.events,
      e ∈ s.application.issued := by
    intro e he
    refine h.fed.sound.inOrder.subset (List.mem_append_left _ ?_)
    exact he
  have hmark : ∀ {l : List Event}, (∀ e ∈ l, e ∈ s.application.issued) →
      lastWrite sensor.value? l =
        (l.filter fun e => e.sourceId = sensor.source).getLast?.bind sensor.value? := by
    intro l hl
    refine lastWrite_marked (fun e : Event => e.sourceId = sensor.source) fun e he => ?_
    rw [sensor.ofSource e (hwired e (hl e he)), decide_eq_true_iff]
  have hissued : lastWrite sensor.value? s.application.issued = some v := by
    have hnone : lastWrite sensor.value? s.eventQueue.items = none :=
      lastWrite_eq_none.mpr fun e he =>
        sensor.value?_other (h.queued e he).1.wired (hqueue e he)
    have hreport := ht v hv
    rwa [Input.lastReport, lastWrite_append, hnone, Option.none_or] at hreport
  have hnew := h.fed.newest hc halloc (by decide) sensor.physical
  rw [hmark hline, hnew, ← hmark fun _ he => he, hissued]

/-- With nothing of its input in the store either, it is the last value MQTT
accepted for the input. -/
theorem last_accepted (h : s.Healthy p) (ht : sensor.Truthful s) (hc : p.cjson.Standard)
    (halloc : ∀ k, (p.env k).allocated = true)
    (hqueue : ∀ e ∈ s.eventQueue.items, e.sourceId ≠ sensor.source)
    (hstore : ∀ e ∈ s.application.offlineStore.events, e.sourceId ≠ sensor.source) {v : γ}
    (hv : sensor.reported? s = some v) :
    lastWrite sensor.value? s.application.accepted = some v := by
  have hreplayed := sensor.last_replayed h ht hc halloc hqueue hv
  have hnone : lastWrite sensor.value? s.application.offlineStore.events = none := by
    refine lastWrite_eq_none.mpr fun e he => sensor.value?_other ?_ (hstore e he)
    exact (h.fed.issued e (h.fed.sound.inOrder.subset
      (List.mem_append_left _ (List.mem_append_right _ he)))).1.wired
  rwa [lastWrite_append, hnone, Option.none_or] at hreplayed

end Sensor

/-! ## The four drivers -/

namespace DigitalInput

/-- The state that was reported. -/
def reported? (d : DigitalInput) : Option Bool :=
  if d.initialEventPending then none else some d.state

theorem reported?_of {d : DigitalInput} (h : d.initialEventPending = false) :
    d.reported? = some d.state := by
  rw [reported?, h]
  rfl

theorem reported?_eq_some {d : DigitalInput} {rawState : Bool} :
    d.reported? = some rawState ↔ d.initialEventPending = false ∧ d.state = rawState := by
  unfold reported?
  cases d.initialEventPending <;> simp

theorem reported?_update (d : DigitalInput) (eventQueue : EventQueue) (level : Nat)
    (now stamp : UInt64) :
    ((d.update eventQueue level now stamp).2.items = eventQueue.items ∧
      (d.update eventQueue level now stamp).1.reported? = d.reported?) ∨
    ((d.update eventQueue level now stamp).2.items =
        eventQueue.items ++ [d.stateEvent (readRawState level) stamp] ∧
      (d.update eventQueue level now stamp).1.reported? = some (readRawState level)) := by
  obtain ⟨-, ⟨hq, hstable, hpending⟩ | ⟨-, hitems, hstable, hpending⟩⟩ :=
    d.update_cases eventQueue level now stamp
  · refine .inl ⟨congrArg EventQueue.items hq, ?_⟩
    rw [reported?, reported?, state, state, hstable, hpending]
  · refine .inr ⟨hitems, ?_⟩
    rw [reported?, state, hstable, hpending]
    rfl

end DigitalInput

namespace Sensor

def button : Sensor Bool where
  toInput := .button
  reported? s := s.buttonInput.reported?
  own := by
    intro p mutex s act h hact
    cases act with
    | pollButton level reading =>
      rcases s.buttonInput.reported?_update s.eventQueue level s.nowMs (s.tick reading) with
        ⟨hq, hsame⟩ | ⟨hq, hnew⟩
      · exact .inl ⟨hq, fun v hv => hsame.symm.trans hv⟩
      · refine .inr ⟨_, hq, hnew.trans ?_⟩
        rw [DigitalInput.stateEvent_wiring h.wired.button]
        cases DigitalInput.readRawState level <;> rfl
    | _ => cases hact
  other := by
    intro p s act hact
    cases act with
    | pollButton => exact absurd rfl hact
    | central freeHeap =>
      exact congrArg DigitalInput.reported? (Station.central_drivers p s freeHeap).1
    | _ => rfl
  fresh _ _ := rfl

def toggle : Sensor Bool where
  toInput := .toggle
  reported? s := s.toggleInput.reported?
  own := by
    intro p mutex s act h hact
    cases act with
    | pollToggle level reading =>
      rcases s.toggleInput.reported?_update s.eventQueue level s.nowMs (s.tick reading) with
        ⟨hq, hsame⟩ | ⟨hq, hnew⟩
      · exact .inl ⟨hq, fun v hv => hsame.symm.trans hv⟩
      · refine .inr ⟨_, hq, hnew.trans ?_⟩
        rw [DigitalInput.stateEvent_wiring h.wired.toggle]
        cases DigitalInput.readRawState level <;> rfl
    | _ => cases hact
  other := by
    intro p s act hact
    cases act with
    | pollToggle => exact absurd rfl hact
    | central freeHeap =>
      exact congrArg DigitalInput.reported? (Station.central_drivers p s freeHeap).2.1
    | _ => rfl
  fresh _ _ := rfl

/-- The encoder's count, if the queue had room at the last poll that counted
an edge. -/
def encoder : Sensor Int32 where
  toInput := .encoder
  reported? s := (s.lastCounted.filter (·.room)).map fun _ => s.rotaryEncoder.count
  own := by
    intro p mutex s act h hact
    cases act with
    | pollEncoder levelA levelB =>
      show (_ ∧ ∀ v, (((s.pollEncoder levelA levelB).lastCounted.filter (·.room)).map fun _ =>
          (s.pollEncoder levelA levelB).rotaryEncoder.count) = some v → _) ∨
        ∃ event, _ ∧ (((s.pollEncoder levelA levelB).lastCounted.filter (·.room)).map fun _ =>
          (s.pollEncoder levelA levelB).rotaryEncoder.count) = _
      rcases Station.pollEncoder_cases s levelA levelB with ⟨hq, hcount, room, hpolls⟩ |
        ⟨hitems, hpolls⟩ | ⟨hq, hpolls, -⟩ <;> rw [Station.lastCounted_append hpolls]
      · exact .inl ⟨congrArg EventQueue.items hq, fun v hv => by rw [← hv, hcount]; rfl⟩
      · exact .inr ⟨_, hitems, rfl⟩
      · -- counted without room: nothing counts as reported
        exact .inl ⟨congrArg EventQueue.items hq, fun v hv => by cases hv⟩
    | _ => cases hact
  other := by
    intro p s act hact
    cases act with
    | pollEncoder => exact absurd rfl hact
    | central freeHeap =>
      obtain ⟨-, -, hencoder, -, hpolls⟩ := Station.central_drivers p s freeHeap
      show ((((s.central p freeHeap).polls.filter (·.counted)).getLast?).filter (·.room)).map
        (fun _ => (s.central p freeHeap).rotaryEncoder.count) = _
      rw [hpolls, hencoder]
      rfl
    | _ => rfl
  fresh _ _ := rfl

/-- The count the encoder last queued, whatever it has counted since. -/
def encoderCount : Sensor Int32 where
  toInput := .encoder
  reported? s := s.lastReported.map (·.count)
  own := by
    intro p mutex s act h hact
    cases act with
    | pollEncoder levelA levelB =>
      show (_ ∧ ∀ v, ((s.pollEncoder levelA levelB).lastReported.map (·.count)) = some v → _) ∨
        ∃ event, _ ∧ ((s.pollEncoder levelA levelB).lastReported.map (·.count)) = _
      rcases Station.pollEncoder_cases s levelA levelB with ⟨hq, -, room, hpolls⟩ |
        ⟨hitems, hpolls⟩ | ⟨hq, hpolls, -⟩ <;> rw [Station.lastReported_append hpolls]
      · exact .inl ⟨congrArg EventQueue.items hq, fun v hv => hv⟩
      · exact .inr ⟨_, hitems, rfl⟩
      · exact .inl ⟨congrArg EventQueue.items hq, fun v hv => hv⟩
    | _ => cases hact
  other := by
    intro p s act hact
    cases act with
    | pollEncoder => exact absurd rfl hact
    | central freeHeap =>
      obtain ⟨-, -, -, -, hpolls⟩ := Station.central_drivers p s freeHeap
      show (((s.central p freeHeap).polls.filter _).getLast?).map (·.count) = _
      rw [hpolls]
      rfl
    | _ => rfl
  fresh _ _ := rfl

def analog : Sensor Int32 where
  toInput := .analog
  reported? s := if s.analogInput.initialEventPending then none else
    some s.analogInput.valuePercent
  own := by
    intro p mutex s act h hact
    cases act with
    | pollAnalog sample =>
      obtain ⟨-, ⟨hq, hsame⟩ | ⟨rawValue, -, -, hitems, hstable, hpending⟩⟩ :=
        s.analogInput.update_cases s.eventQueue sample s.nowMs
      · refine .inl ⟨congrArg EventQueue.items hq, fun v hv => ?_⟩
        rw [← hv, ← hsame]
        rfl
      · refine .inr ⟨_, hitems, ?_⟩
        have hpending' : (s.pollAnalog sample).analogInput.initialEventPending = false := hpending
        have hstable' : (s.pollAnalog sample).analogInput.stablePercent =
          AnalogInput.rawToPercent rawValue := hstable
        show (if (s.pollAnalog sample).analogInput.initialEventPending then none
          else some (s.pollAnalog sample).analogInput.valuePercent) = _
        rw [hpending', AnalogInput.valuePercent, hstable']
        rfl
    | _ => cases hact
  other := by
    intro p s act hact
    cases act with
    | pollAnalog => exact absurd rfl hact
    | central freeHeap =>
      exact congrArg (fun a : AnalogInput => if a.initialEventPending then none else
        some a.valuePercent) (Station.central_drivers p s freeHeap).2.2.2.1
    | _ => rfl
  fresh _ _ := rfl

end Sensor

end KaizenStation.Firmware
