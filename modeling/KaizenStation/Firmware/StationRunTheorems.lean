/-
KaizenStation.Firmware.StationRunTheorems — one act of the running station,
seen from the queue and the central task.

`Moves` says once what an act can do to the event queue and the application;
`Tracks.moves` is its proof, act by act. A run of the station is then a run of
calls for its application (`run_calls`), and whatever it offers to MQTT is a
driver's report or a heartbeat (`run_attempts_outgoing`).
-/
import KaizenStation.Firmware.DeliveryTheorems
import KaizenStation.Firmware.StationTheorems

namespace KaizenStation.Firmware

open KaizenStation.Foundation

/-- What the Wi-Fi and MQTT managers post: no report and nothing that is
published. -/
def Act.Quiet : Act → Prop
  | .post event => event.Foreign ∧ Application.shouldPublish event = false
  | _ => True

theorem Act.Quiet.foreign {act : Act} (h : act.Quiet) : act.Foreign := by
  cases act with
  | post => exact h.1
  | _ => trivial

/-! ## The line of events that are accepted or wait -/

namespace Application

/-- The accepted events, then those that wait for MQTT. -/
def line (a : Application) : List Event := a.accepted ++ a.offlineStore.events

variable {p : Platform} {capacity : Nat} {mutex : Bool}

/-- Processing an event takes events out of the line and may put this one at
its end. -/
theorem processEvent_line {a : Application} (hr : Ready p capacity mutex a) (event : Event) :
    (a.processEvent p event).line.Sublist (a.line ++
      if shouldPublish event then [{ event with sequenceId := a.nextSequenceId }] else []) := by
  have h := processEvent_processed hr event
  obtain ⟨new, hissued, hline⟩ := Outbox.Steps.line h.steps
  have hnew := List.append_cancel_left (h.issued.symm.trans hissued)
  rw [hnew]
  show ((a.processEvent p event).accepted ++ (a.processEvent p event).offlineStore.events).Sublist
    ((a.accepted ++ a.offlineStore.events) ++ new)
  have h1 := (List.sublist_append_left _ []).trans hline
  have h2 : a.accepted ++ a.offlineStore.events ++ [] ++ new =
      a.accepted ++ a.offlineStore.events ++ new := by rw [List.append_nil]
  exact h2 ▸ h1

theorem flushIfPending_line {a : Application} (hr : Ready p capacity mutex a) :
    (a.flushIfPending p).line.Sublist a.line := by
  have h := flushIfPending_advances hr []
  obtain ⟨new, hissued, hline⟩ := Outbox.Steps.line h.steps
  have hnew : new = [] := by
    have : a.issued ++ [] = a.issued ++ new :=
      (List.append_nil _).trans (h.untouched.issued.symm.trans hissued)
    exact (List.append_cancel_left this).symm
  rw [hnew] at hline
  show ((a.flushIfPending p).accepted ++ (a.flushIfPending p).offlineStore.events).Sublist
    (a.accepted ++ a.offlineStore.events)
  have h1 := (List.sublist_append_left _ []).trans hline
  have h2 : a.accepted ++ a.offlineStore.events ++ [] ++ [] =
      a.accepted ++ a.offlineStore.events := by simp
  exact h2 ▸ h1

/-- With no connection at its first question, `publishOrBuffer` goes straight
to the buffer. -/
theorem publishOrBuffer_disconnected {a : Application} (h : (p.env a.calls).connected = false)
    (event : Event) : a.publishOrBuffer p event = a.called.bufferEvent event := by
  cases hempty : a.offlineStore.empty with
  | true =>
    simp [publishOrBuffer, flushIfPending, publishDirect, hempty, isConnected, h]
  | false =>
    have hcalled : a.called.offlineStore.empty = false := hempty
    simp [publishOrBuffer, flushIfPending, publishDirect, hempty, hcalled, flushOfflineEvents,
      isConnected, h]

/-- A heartbeat that finds no connection is discarded. -/
theorem processEvent_disconnected {a : Application} (h : (p.env a.calls).connected = false)
    (event : Event) (ht : event.type = .heartbeat) :
    (a.processEvent p event).line = a.line := by
  have hpub : shouldPublish event = true := by simp [shouldPublish, ht]
  have hcon : a.onConnected p event = a := if_neg (by simp [ht])
  have hcalls : (p.env ((a.applied event).numbered event).calls).connected = false := h
  rw [processEvent_published hpub, hcon, publishOrBuffer_disconnected hcalls]
  have hdiscard : ((a.applied event).numbered event).called.bufferEvent
      { event with sequenceId := a.nextSequenceId } =
      ((a.applied event).numbered event).called.observe
        (.heartbeatDiscarded { event with sequenceId := a.nextSequenceId }
          ((a.applied event).numbered event).called.offlineStore.events
          ((a.applied event).numbered event).called.calls) := by
    simp [bufferEvent, ht]
  rw [hdiscard]
  simp [line, accepted, attempts, observe, called, numbered, applied, List.filterMap_append,
    Obs.attempt?]

end Application

namespace Station

/-! ## One act -/

theorem le_later (nowMs reading : UInt64) : nowMs ≤ later nowMs reading := by
  unfold later
  split
  · assumption
  · exact UInt64.le_refl _

/-- What an act does to the queue and the application. -/
inductive Moves (p : Platform) (s : Station) (act : Act) (s' : Station) : Prop where
  | idle : s'.eventQueue.items = s.eventQueue.items → s'.application = s.application →
      Moves p s act s'
  | reported (event : Event) : event.Reported → event.timestampMs = s'.nowMs →
      s'.eventQueue.items = s.eventQueue.items ++ [event] → s'.application = s.application →
      Moves p s act s'
  | posted (event : Event) : event.Foreign → Application.shouldPublish event = false →
      s'.eventQueue.items = s.eventQueue.items ++ [event] → s'.application = s.application →
      Moves p s act s'
  | received (event : Event) (rest : List Event) : s.eventQueue.items = event :: rest →
      s'.eventQueue.items = rest → s'.application = s.application.processEvent p event →
      Moves p s act s'
  | flushed : s'.eventQueue.items = s.eventQueue.items →
      s'.application = s.application.flushIfPending p → Moves p s act s'
  | beat (freeHeap : UInt32) : act = .central freeHeap → s.loopPoint = .heartbeat →
      s.heartbeatDue = true → s'.eventQueue.items = s.eventQueue.items →
      s'.application = s.application.processEvent p (Application.heartbeat s.nowMs freeHeap) →
      Moves p s act s'

variable {p : Platform} {mutex : Bool}

theorem central_moves (s : Station) (freeHeap : UInt32) :
    Moves p s (.central freeHeap) (s.step p (.central freeHeap)) := by
  show Moves p s (.central freeHeap) (s.central p freeHeap)
  unfold central
  split
  · cases hq : s.eventQueue.items with
    | nil =>
      refine .idle ?_ ?_ <;> simp [receive, EventQueue.receive_nil hq]
    | cons event rest =>
      obtain ⟨hev, hrest, -⟩ := EventQueue.receive_cons hq
      exact .received event rest hq hrest (by simp [receive, hev])
  · exact .flushed rfl rfl
  · next hpoint =>
    unfold heartbeat
    cases hdue : s.heartbeatDue with
    | true => exact .beat freeHeap rfl hpoint hdue rfl rfl
    | false => exact .idle rfl rfl

theorem Tracks.moves {s : Station} (h : Tracks p mutex s) {act : Act} (hact : act.Quiet) :
    s.nowMs ≤ (s.step p act).nowMs ∧ Moves p s act (s.step p act) := by
  cases act with
  | wait reading => exact ⟨le_later _ _, .idle rfl rfl⟩
  | pollButton level reading =>
    refine ⟨le_later _ _, ?_⟩
    obtain ⟨-, hcases⟩ := s.buttonInput.update_cases s.eventQueue level s.nowMs (s.tick reading)
    rcases hcases with ⟨hq, -⟩ | ⟨-, hitems, -⟩
    · exact .idle (congrArg EventQueue.items hq) rfl
    · refine .reported _ (reported_button h.wired.button _ _) rfl hitems rfl
  | pollToggle level reading =>
    refine ⟨le_later _ _, ?_⟩
    obtain ⟨-, hcases⟩ := s.toggleInput.update_cases s.eventQueue level s.nowMs (s.tick reading)
    rcases hcases with ⟨hq, -⟩ | ⟨-, hitems, -⟩
    · exact .idle (congrArg EventQueue.items hq) rfl
    · refine .reported _ (reported_toggle h.wired.toggle _ _) rfl hitems rfl
  | pollEncoder levelA levelB =>
    refine ⟨UInt64.le_refl _, ?_⟩
    have hsource := pollEncoder_source h.wired.encoder levelA levelB
    rcases pollEncoder_cases s levelA levelB with ⟨hq, -⟩ | ⟨hitems, -⟩ | ⟨hq, -⟩
    · exact .idle (congrArg EventQueue.items hq) rfl
    · exact .reported _ (reported_encoder hsource _) rfl hitems rfl
    · exact .idle (congrArg EventQueue.items hq) rfl
  | pollAnalog sample =>
    refine ⟨UInt64.le_refl _, ?_⟩
    obtain ⟨-, hcases⟩ := s.analogInput.update_cases s.eventQueue sample s.nowMs
    rcases hcases with ⟨hq, -⟩ | ⟨rawValue, -, -, hitems, -⟩
    · exact .idle (congrArg EventQueue.items hq) rfl
    · exact .reported _ (reported_analog h.wired.analog rawValue s.nowMs) rfl hitems rfl
  | post event =>
    refine ⟨UInt64.le_refl _, ?_⟩
    rcases s.eventQueue.send_cases event with ⟨-, -, hitems⟩ | ⟨-, -, hsame⟩
    · exact .posted event hact.1 hact.2 hitems rfl
    · exact .idle (congrArg EventQueue.items hsame) rfl
  | central freeHeap =>
    refine ⟨?_, central_moves s freeHeap⟩
    show s.nowMs ≤ (s.central p freeHeap).nowMs
    unfold Station.central Station.heartbeat
    split
    · exact UInt64.le_refl _
    · exact UInt64.le_refl _
    · split <;> exact UInt64.le_refl _

/-! ## Runs -/

/-- Whatever an act does to the application is done by calls on it. -/
theorem Moves.calls {s s' : Station} {act : Act} (h : Moves p s act s') :
    ∃ calls, s'.application = s.application.run p calls := by
  cases h with
  | idle _ ha | reported _ _ _ _ ha | posted _ _ _ _ ha => exact ⟨[], ha⟩
  | received event _ _ _ ha => exact ⟨[.processEvent event], ha⟩
  | beat freeHeap _ _ _ _ ha =>
    exact ⟨[.processEvent (Application.heartbeat s.nowMs freeHeap)], ha⟩
  | flushed _ ha =>
    unfold Application.flushIfPending at ha
    split at ha
    · exact ⟨[.flushOfflineEvents], ha⟩
    · exact ⟨[], ha⟩

/-- A run of the station is, for its application, a run of calls. -/
theorem run_calls (p : Platform) (r : Readings) (mutex : Bool) {acts : List Act}
    (hacts : ∀ act ∈ acts, act.Quiet) :
    ∃ calls, ((boot r mutex).run p acts).application =
      (Application.boot (OfflineEventStore.create OFFLINE_EVENT_QUEUE_SIZE mutex)).run p calls := by
  have hrun : ∀ {s : Station}, Tracks p mutex s → ∀ {acts : List Act},
      (∀ act ∈ acts, act.Quiet) →
      ∃ calls, (s.run p acts).application = s.application.run p calls := by
    intro s h acts hacts
    induction acts generalizing s with
    | nil => exact ⟨[], rfl⟩
    | cons act acts ih =>
      have hact := hacts act List.mem_cons_self
      obtain ⟨calls, hcalls⟩ := (h.moves hact).2.calls
      obtain ⟨calls', hcalls'⟩ := ih (h.step hact.foreign) fun a ha =>
        hacts a (List.mem_cons_of_mem _ ha)
      refine ⟨calls ++ calls', hcalls'.trans ?_⟩
      rw [hcalls]
      exact (List.foldl_append ..).symm
  exact hrun (boot_tracks p r mutex) hacts

/-! ## What can be handed to MQTT -/

end Station

/-- The free heap is small enough for an `int32_t`. -/
def Act.Sized : Act → Prop
  | .central freeHeap => freeHeap.toNat < 2 ^ 31
  | _ => True

/-- A report, or a heartbeat with a heap size. -/
def Event.Outgoing (event : Event) : Prop :=
  event.Reported ∨ (event.type = .heartbeat ∧ event.sourceId = 0 ∧ 0 ≤ event.value)

theorem Event.Reported.published {event : Event} (h : event.Reported) :
    Application.shouldPublish event = true := by
  unfold Event.Reported at h
  unfold Application.shouldPublish
  cases ht : event.type <;> simp_all

theorem heartbeat_outgoing (now : UInt64) {freeHeap : UInt32} (h : freeHeap.toNat < 2 ^ 31) :
    (Application.heartbeat now freeHeap).Outgoing := by
  refine .inr ⟨rfl, rfl, ?_⟩
  show 0 ≤ freeHeap.toInt32
  have h0 : (0 : Int32).toInt = 0 := by decide
  rw [Int32.le_iff_toInt_le, h0]
  show 0 ≤ freeHeap.toBitVec.toInt
  rw [BitVec.toInt_eq_toNat_of_lt]
  · exact Int.natCast_nonneg _
  · show 2 * freeHeap.toNat < 2 ^ 32
    omega

namespace Station

variable {p : Platform} {mutex : Bool}

/-- Only outgoing events have been or will be numbered. -/
structure Feeds (s : Station) : Prop where
  queued : ∀ e ∈ s.eventQueue.items, e.Reported ∨ Application.shouldPublish e = false
  issued : ∀ e ∈ s.application.issued, e.Outgoing

/-- Numbering an outgoing event, or one that is not published. -/
theorem issued_outgoing {a : Application}
    (hr : Application.Ready p OFFLINE_EVENT_QUEUE_SIZE mutex a)
    (ha : ∀ e ∈ a.issued, e.Outgoing) {event : Event}
    (he : event.Outgoing ∨ Application.shouldPublish event = false) :
    ∀ e ∈ (a.processEvent p event).issued, e.Outgoing := by
  intro e hmem
  rw [(Application.processEvent_processed hr event).issued, List.mem_append] at hmem
  rcases hmem with hmem | hmem
  · exact ha e hmem
  · split at hmem
    · next hpub =>
      rw [List.mem_singleton.mp hmem]
      rcases he with he | he
      · exact he
      · rw [hpub] at he
        cases he
    · cases hmem

theorem Feeds.moves {s s' : Station} (h : s.Feeds)
    (hr : Application.Ready p OFFLINE_EVENT_QUEUE_SIZE mutex s.application) {act : Act}
    (hm : Moves p s act s') (hs : act.Sized) : s'.Feeds := by
  cases hm with
  | idle hq ha => exact ⟨hq ▸ h.queued, ha ▸ h.issued⟩
  | flushed hq ha =>
    have hissued := (Application.flushIfPending_advances hr []).untouched.issued
    exact ⟨hq ▸ h.queued, fun e he => h.issued e (by rwa [ha, hissued] at he)⟩
  | reported event hrep _ hq ha =>
    refine ⟨fun e he => ?_, ha ▸ h.issued⟩
    rw [hq, List.mem_append, List.mem_singleton] at he
    rcases he with he | rfl
    · exact h.queued e he
    · exact .inl hrep
  | posted event _ hpub hq ha =>
    refine ⟨fun e he => ?_, ha ▸ h.issued⟩
    rw [hq, List.mem_append, List.mem_singleton] at he
    rcases he with he | rfl
    · exact h.queued e he
    · exact .inr hpub
  | received event rest hq hq' ha =>
    refine ⟨fun e he => h.queued e (hq ▸ List.mem_cons_of_mem _ (hq' ▸ he)), ?_⟩
    rw [ha]
    refine issued_outgoing hr h.issued ?_
    exact (h.queued event (hq ▸ List.mem_cons_self)).imp_left .inl
  | beat freeHeap hact _ _ hq ha =>
    refine ⟨hq ▸ h.queued, ?_⟩
    rw [ha]
    subst hact
    exact issued_outgoing hr h.issued (.inl (heartbeat_outgoing _ hs))

/-- Whatever is offered to MQTT is an outgoing event. -/
theorem run_attempts_outgoing (p : Platform) (r : Readings) (mutex : Bool) {acts : List Act}
    (hacts : ∀ act ∈ acts, act.Quiet) (hsized : ∀ act ∈ acts, act.Sized) :
    ∀ attempt ∈ ((boot r mutex).run p acts).application.attempts, attempt.1.Outgoing := by
  have hrun : ∀ {s : Station}, Tracks p mutex s → s.Feeds → ∀ {acts : List Act},
      (∀ act ∈ acts, act.Quiet) → (∀ act ∈ acts, act.Sized) → (s.run p acts).Feeds := by
    intro s h hf acts hacts hsized
    induction acts generalizing s with
    | nil => exact hf
    | cons act acts ih =>
      have hact := hacts act List.mem_cons_self
      exact ih (h.step hact.foreign)
        (hf.moves h.ready (h.moves hact).2 (hsized act List.mem_cons_self))
        (fun a ha => hacts a (List.mem_cons_of_mem _ ha))
        (fun a ha => hsized a (List.mem_cons_of_mem _ ha))
  have hfeeds : ((boot r mutex).run p acts).Feeds := by
    refine hrun (boot_tracks p r mutex) ⟨?_, ?_⟩ hacts hsized
    · intro e he
      cases he
    · intro e he
      cases he
  obtain ⟨calls, hcalls⟩ := run_calls p r mutex hacts
  have hsound := (Application.boot_run p OFFLINE_EVENT_QUEUE_SIZE mutex {} calls).sound
  intro attempt hattempt
  refine hfeeds.issued _ ?_
  rw [hcalls] at hattempt ⊢
  exact hsound.attempted attempt hattempt

end Station

end KaizenStation.Firmware
