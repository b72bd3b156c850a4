/-
KaizenStation.Firmware.QueueTheorems — when the event queue refuses nothing.

Every act of a run offers the queue an event, takes one out, or leaves it
alone. Whether anything is ever refused is then a question about the run's
traffic, and the answer is exact (`nothing_refused_iff`): in every part of the
run at most 32 more events are offered than `receive` is reached. In such a
run every edge the encoder counts gets an event of its own, which waits in
the queue until the central task numbers it (`EdgesReported`).
-/
import KaizenStation.Foundation.Backlog
import KaizenStation.Firmware.Polling
import KaizenStation.Firmware.StationRunTheorems

namespace KaizenStation.Firmware

open KaizenStation.Foundation

namespace Station

/-! ## The traffic of a run -/

/-- The event the act hands to the queue. -/
def offered? (s : Station) : Act → Option Event
  | .pollButton level reading => s.buttonInput.offer level s.nowMs (s.tick reading)
  | .pollToggle level reading => s.toggleInput.offer level s.nowMs (s.tick reading)
  | .pollEncoder levelA levelB =>
    s.rotaryEncoder.offer (RotaryEncoder.readState levelA levelB) s.nowMs
  | .pollAnalog sample => s.analogInput.offer sample s.nowMs
  | .post event => some event
  | _ => none

/-- The act is the central task's `receive`. -/
def receives (s : Station) : Act → Bool
  | .central _ => decide (s.loopPoint = .receive)
  | _ => false

def traffic (s : Station) (act : Act) : Traffic :=
  if (s.offered? act).isSome then .arrive else if s.receives act then .serve else .idle

variable (p : Platform)

def trafficOf : Station → List Act → List Traffic
  | _, [] => []
  | s, act :: acts => s.traffic act :: trafficOf (s.step p act) acts

/-- No event is offered to a full queue. -/
def NothingRefused (s : Station) (acts : List Act) : Prop :=
  ∀ before act after, acts = before ++ act :: after → ∀ event,
    (s.run p before).offered? act = some event → (s.run p before).eventQueue.hasRoom = true

variable {p} {s : Station}

/-- What an act does to the queue. -/
theorem step_queue (s : Station) (act : Act) :
    (∃ event, s.offered? act = some event ∧
      (s.step p act).eventQueue = (s.eventQueue.send event).1) ∨
    (s.offered? act = none ∧ s.receives act = true ∧
      (s.step p act).eventQueue = s.eventQueue.receive.1) ∨
    (s.offered? act = none ∧ s.receives act = false ∧
      (s.step p act).eventQueue = s.eventQueue) := by
  have hpoll : ∀ {act : Act}, s.receives act = false →
      (s.offered? act = none → (s.step p act).eventQueue = s.eventQueue) →
      (∀ event, s.offered? act = some event →
        (s.step p act).eventQueue = (s.eventQueue.send event).1) →
      (∃ event, s.offered? act = some event ∧
        (s.step p act).eventQueue = (s.eventQueue.send event).1) ∨
      (s.offered? act = none ∧ s.receives act = true ∧
        (s.step p act).eventQueue = s.eventQueue.receive.1) ∨
      (s.offered? act = none ∧ s.receives act = false ∧
        (s.step p act).eventQueue = s.eventQueue) := by
    intro act hno hnone hsome
    cases hoffer : s.offered? act with
    | none => exact .inr (.inr ⟨rfl, hno, hnone hoffer⟩)
    | some event => exact .inl ⟨event, rfl, hsome event hoffer⟩
  cases act with
  | wait => exact .inr (.inr ⟨rfl, rfl, rfl⟩)
  | post event => exact .inl ⟨event, rfl, rfl⟩
  | pollButton level reading =>
    have hqueue := (s.buttonInput.update_offer s.eventQueue level s.nowMs (s.tick reading)).1
    refine hpoll rfl (fun h => ?_) fun event h => ?_
    · exact hqueue.trans (by rw [show s.buttonInput.offer _ _ _ = none from h])
    · exact hqueue.trans (by rw [show s.buttonInput.offer _ _ _ = some event from h])
  | pollToggle level reading =>
    have hqueue := (s.toggleInput.update_offer s.eventQueue level s.nowMs (s.tick reading)).1
    refine hpoll rfl (fun h => ?_) fun event h => ?_
    · exact hqueue.trans (by rw [show s.toggleInput.offer _ _ _ = none from h])
    · exact hqueue.trans (by rw [show s.toggleInput.offer _ _ _ = some event from h])
  | pollEncoder levelA levelB =>
    have hqueue := (s.rotaryEncoder.update_offer s.eventQueue levelA levelB s.nowMs).2
    refine hpoll rfl (fun h => ?_) fun event h => ?_
    · exact hqueue.trans (by rw [show s.rotaryEncoder.offer _ _ = none from h])
    · exact hqueue.trans (by rw [show s.rotaryEncoder.offer _ _ = some event from h])
  | pollAnalog sample =>
    have hqueue := (s.analogInput.update_offer s.eventQueue sample s.nowMs).1
    refine hpoll rfl (fun h => ?_) fun event h => ?_
    · exact hqueue.trans (by rw [show s.analogInput.offer _ _ = none from h])
    · exact hqueue.trans (by rw [show s.analogInput.offer _ _ = some event from h])
  | central freeHeap =>
    refine .inr ?_
    show (_ ∧ _ ∧ (s.central p freeHeap).eventQueue = _) ∨
      (_ ∧ _ ∧ (s.central p freeHeap).eventQueue = _)
    unfold central
    split
    · next hpoint => exact .inl ⟨rfl, decide_eq_true hpoint, rfl⟩
    · next hpoint => exact .inr ⟨rfl, by simp [receives, hpoint], rfl⟩
    · next hpoint =>
      refine .inr ⟨rfl, by simp [receives, hpoint], ?_⟩
      unfold heartbeat
      split <;> rfl

theorem trafficOf_append (s : Station) (before after : List Act) :
    trafficOf p s (before ++ after) =
      trafficOf p s before ++ trafficOf p (s.run p before) after := by
  induction before generalizing s with
  | nil => rfl
  | cons act before ih =>
    rw [List.cons_append, trafficOf, trafficOf, ih]
    rfl

theorem nothingRefused_nil (s : Station) : s.NothingRefused p [] := by
  intro before act after hsplit
  cases before <;> cases hsplit

theorem nothingRefused_cons (s : Station) (act : Act) (acts : List Act) :
    s.NothingRefused p (act :: acts) ↔
      (∀ event, s.offered? act = some event → s.eventQueue.hasRoom = true) ∧
      (s.step p act).NothingRefused p acts := by
  constructor
  · intro h
    refine ⟨h [] act acts rfl, fun before next after hsplit => ?_⟩
    exact h (act :: before) next after (by rw [hsplit, List.cons_append])
  · rintro ⟨hfirst, hrest⟩ before next after hsplit
    cases before with
    | nil =>
      obtain ⟨rfl, -⟩ := List.cons_eq_cons.mp hsplit
      exact hfirst
    | cons first before =>
      obtain ⟨rfl, htail⟩ := List.cons_eq_cons.mp hsplit
      exact hrest before next after htail

/-- The refusals of the run are those of its traffic. -/
theorem nothingRefused_iff_refusals (s : Station) (acts : List Act) :
    s.NothingRefused p acts ↔ Traffic.refusals s.eventQueue.capacity s.eventQueue.items.length
      (trafficOf p s acts) = 0 := by
  induction acts generalizing s with
  | nil => exact iff_of_true (nothingRefused_nil s) rfl
  | cons act acts ih =>
    rw [nothingRefused_cons, ih, trafficOf]
    rcases step_queue (p := p) s act with ⟨event, hoffer, hqueue⟩ | ⟨hnone, hreceives, hqueue⟩ |
      ⟨hnone, hreceives, hqueue⟩
    · have htraffic : s.traffic act = .arrive := by simp [traffic, hoffer]
      have hcapacity : (s.step p act).eventQueue.capacity = s.eventQueue.capacity :=
        hqueue ▸ s.eventQueue.send_capacity event
      rw [htraffic, Traffic.refusals, hcapacity]
      by_cases hroom : s.eventQueue.items.length < s.eventQueue.capacity
      · have hlength : (s.step p act).eventQueue.items.length = s.eventQueue.items.length + 1 := by
          rw [hqueue, (EventQueue.send_accepted hroom).2, List.length_append]
          rfl
        rw [if_pos hroom, hlength]
        exact and_iff_right fun _ _ => decide_eq_true hroom
      · rw [if_neg hroom]
        refine iff_of_false (fun h => hroom ?_) (Nat.succ_ne_zero _)
        exact of_decide_eq_true (h.1 event hoffer)
    · have htraffic : s.traffic act = .serve := by simp [traffic, hnone, hreceives]
      have hcapacity : (s.step p act).eventQueue.capacity = s.eventQueue.capacity :=
        hqueue ▸ s.eventQueue.receive_capacity
      have hlength : (s.step p act).eventQueue.items.length = s.eventQueue.items.length - 1 := by
        rw [hqueue]
        cases hq : s.eventQueue.items with
        | nil => rw [EventQueue.receive_nil hq, hq]; rfl
        | cons event rest => rw [(EventQueue.receive_cons hq).2.1]; rfl
      rw [htraffic, Traffic.refusals, hcapacity, hlength]
      exact and_iff_right fun event h => by rw [hnone] at h; cases h
    · have htraffic : s.traffic act = .idle := by simp [traffic, hnone, hreceives]
      rw [htraffic, Traffic.refusals, hqueue]
      exact and_iff_right fun event h => by rw [hnone] at h; cases h

/-! ## The exact condition -/

/-- The events offered in a part of the run. -/
def offered (p : Platform) (s : Station) (part : List Act) : Nat :=
  Traffic.arrivals (trafficOf p s part)

/-- The times `receive` is reached in a part of the run. -/
def received (p : Platform) (s : Station) (part : List Act) : Nat :=
  Traffic.services (trafficOf p s part)

/-- The parts of the traffic are the traffic of the parts. -/
theorem part_of_traffic {part : List Traffic} {acts : List Act} (h : part <:+: trafficOf p s acts) :
    ∃ before now after, acts = before ++ now ++ after ∧
      part = trafficOf p (s.run p before) now := by
  obtain ⟨front, back, hsplit⟩ := h
  have hcut : ∀ {s : Station} {acts : List Act} {front back : List Traffic},
      trafficOf p s acts = front ++ back → ∃ before after, acts = before ++ after ∧
        front = trafficOf p s before ∧ back = trafficOf p (s.run p before) after := by
    intro s acts
    induction acts generalizing s with
    | nil =>
      intro front back h
      obtain ⟨rfl, rfl⟩ := List.append_eq_nil_iff.mp h.symm
      exact ⟨[], [], rfl, rfl, rfl⟩
    | cons act acts ih =>
      intro front back h
      cases front with
      | nil => exact ⟨[], act :: acts, rfl, rfl, h.symm⟩
      | cons x front =>
        rw [trafficOf, List.cons_append, List.cons_eq_cons] at h
        obtain ⟨before, after, rfl, rfl, hback⟩ := ih h.2
        exact ⟨act :: before, after, rfl, by rw [trafficOf, h.1], hback⟩
  rw [List.append_assoc] at hsplit
  obtain ⟨before, rest, rfl, -, hrest⟩ := hcut hsplit.symm
  obtain ⟨now, after, rfl, hpart, -⟩ := hcut hrest.symm
  exact ⟨before, now, after, by rw [List.append_assoc], hpart⟩

theorem traffic_of_part (s : Station) (before now after : List Act) :
    trafficOf p (s.run p before) now <:+: trafficOf p s (before ++ now ++ after) := by
  rw [trafficOf_append, trafficOf_append]
  exact ⟨trafficOf p s before, _, rfl⟩

theorem counted_offered {s : Station} {levelA levelB : Nat}
    (h : (s.pollEncoder levelA levelB).rotaryEncoder.count ≠ s.rotaryEncoder.count) :
    (s.offered? (.pollEncoder levelA levelB)).isSome = true := by
  have hdriver : (s.pollEncoder levelA levelB).rotaryEncoder =
      s.rotaryEncoder.moved (RotaryEncoder.readState levelA levelB) :=
    (RotaryEncoder.update_offer _ _ _ _ _).1
  rw [hdriver] at h
  show (s.rotaryEncoder.offer (RotaryEncoder.readState levelA levelB) s.nowMs).isSome = true
  rw [RotaryEncoder.offer, if_neg h]
  rfl

/-! ## The encoder's edges -/

/-- The counts among the events that were numbered and those that are
queued. -/
def reportedCounts (s : Station) : List Int32 :=
  (s.application.issued ++ s.eventQueue.items).filterMap Event.encoder?

/-- Every edge that was counted found room, and the counts were reported, in
this order and each in its own event. -/
structure EdgesReported (s : Station) : Prop where
  room : ∀ poll ∈ s.polls, poll.counted = true → poll.room = true
  reported : ((s.polls.filter (·.counted)).map (·.count)).Sublist s.reportedCounts

theorem reportedCounts_append {s s' : Station} {event : Event}
    (hq : s'.eventQueue.items = s.eventQueue.items ++ [event])
    (ha : s'.application = s.application) :
    s'.reportedCounts = s.reportedCounts ++ event.encoder?.toList := by
  rw [reportedCounts, reportedCounts, hq, ha, ← List.append_assoc]
  exact Application.filterMap_append_singleton _ _ _

theorem reportedCounts_same {s s' : Station} (hq : s'.eventQueue.items = s.eventQueue.items)
    (ha : s'.application.issued = s.application.issued) :
    s.reportedCounts <+: s'.reportedCounts := by
  have hsame : s.reportedCounts = s'.reportedCounts := by
    rw [reportedCounts, reportedCounts, hq, ha]
  exact hsame ▸ List.prefix_refl _

/-- A count is numbered when it is received. -/
theorem issued_counts {mutex : Bool} {a : Application}
    (hr : Application.Ready p OFFLINE_EVENT_QUEUE_SIZE mutex a) (event : Event) :
    (a.processEvent p event).issued.filterMap Event.encoder? =
      a.issued.filterMap Event.encoder? ++ event.encoder?.toList := by
  rw [(Application.processEvent_processed hr event).issued, List.filterMap_append]
  cases hpub : Application.shouldPublish event with
  | true => cases ht : event.type <;> simp [Event.encoder?, ht]
  | false => cases ht : event.type <;> simp_all [Event.encoder?, Application.shouldPublish]

/-- No act takes back a count. -/
theorem reportedCounts_step {mutex : Bool}
    (hr : Application.Ready p OFFLINE_EVENT_QUEUE_SIZE mutex s.application) (act : Act) :
    Application.Ready p OFFLINE_EVENT_QUEUE_SIZE mutex (s.step p act).application ∧
      s.reportedCounts <+: (s.step p act).reportedCounts := by
  have hsent : ∀ {s' : Station} (event : Event), s'.application = s.application →
      s'.eventQueue = (s.eventQueue.send event).1 → s.reportedCounts <+: s'.reportedCounts := by
    intro s' event ha hq
    rcases s.eventQueue.send_cases event with ⟨-, -, hitems⟩ | ⟨-, -, hsame⟩
    · rw [reportedCounts_append ((congrArg EventQueue.items hq).trans hitems) ha]
      exact List.prefix_append _ _
    · exact reportedCounts_same (congrArg EventQueue.items (hq.trans hsame))
        (congrArg Application.issued ha)
  cases act with
  | central freeHeap =>
    obtain ⟨calls, hcalls⟩ := (central_moves (p := p) s freeHeap).calls
    refine ⟨hcalls ▸ (Application.run_ready hr calls).1, ?_⟩
    cases central_moves (p := p) s freeHeap with
    | idle hq ha => exact reportedCounts_same hq (congrArg Application.issued ha)
    | reported event _ _ hq ha => exact reportedCounts_append hq ha ▸ List.prefix_append _ _
    | posted event _ _ hq ha => exact reportedCounts_append hq ha ▸ List.prefix_append _ _
    | flushed hq ha =>
      have hissued := (Application.flushIfPending_advances hr []).untouched.issued
      exact reportedCounts_same hq ((congrArg Application.issued ha).trans hissued)
    | received event rest hq hq' ha =>
      rw [reportedCounts, reportedCounts, hq, hq', ha, List.filterMap_append,
        List.filterMap_append, issued_counts hr]
      simp [List.filterMap_cons]
      cases event.encoder? <;> simp
    | beat heap _ _ _ hq ha =>
      rw [reportedCounts, reportedCounts, hq, ha, List.filterMap_append, List.filterMap_append,
        issued_counts hr]
      simp [Event.encoder?, Application.heartbeat]
  | _ =>
    refine ⟨hr, ?_⟩
    rcases step_queue (p := p) s _ with ⟨event, -, hq⟩ | ⟨-, hreceives, -⟩ | ⟨-, -, hq⟩
    · exact hsent event rfl hq
    · cases hreceives
    · exact reportedCounts_same (congrArg EventQueue.items hq) rfl

theorem EdgesReported.of_polls {s s' : Station} (h : s.EdgesReported) (hpolls : s'.polls = s.polls)
    (hmore : s.reportedCounts <+: s'.reportedCounts) : s'.EdgesReported :=
  ⟨hpolls ▸ h.room, hpolls ▸ h.reported.trans hmore.sublist⟩

theorem EdgesReported.pollEncoder {levelA levelB : Nat} (h : s.EdgesReported)
    (hroom : ∀ event, s.offered? (.pollEncoder levelA levelB) = some event →
      s.eventQueue.hasRoom = true) : (s.pollEncoder levelA levelB).EdgesReported := by
  rcases pollEncoder_cases s levelA levelB with ⟨hq, -, room, hpolls⟩ | ⟨hitems, hpolls⟩ |
    ⟨-, -, hcount, hfull⟩
  · have hmore : s.reportedCounts <+: (s.pollEncoder levelA levelB).reportedCounts :=
      reportedCounts_same (congrArg EventQueue.items hq) rfl
    refine ⟨fun poll hpoll hcounted => ?_, ?_⟩
    · rw [hpolls, List.mem_append, List.mem_singleton] at hpoll
      rcases hpoll with hpoll | rfl
      · exact h.room poll hpoll hcounted
      · cases hcounted
    · rw [hpolls, List.filter_append, List.map_append]
      simpa using h.reported.trans hmore.sublist
  · refine ⟨fun poll hpoll hcounted => ?_, ?_⟩
    · rw [hpolls, List.mem_append, List.mem_singleton] at hpoll
      rcases hpoll with hpoll | rfl
      · exact h.room poll hpoll hcounted
      · rfl
    · rw [hpolls, reportedCounts_append hitems rfl, List.filter_append, List.map_append]
      exact h.reported.append (List.Sublist.refl _)
  · -- an edge without room is an event that was refused
    obtain ⟨event, hevent⟩ := Option.isSome_iff_exists.mp (counted_offered hcount)
    exact absurd (of_decide_eq_true (hroom event hevent)) hfull

theorem EdgesReported.step {mutex : Bool} {act : Act} (h : s.EdgesReported)
    (hr : Application.Ready p OFFLINE_EVENT_QUEUE_SIZE mutex s.application)
    (hroom : ∀ event, s.offered? act = some event → s.eventQueue.hasRoom = true) :
    (s.step p act).EdgesReported := by
  have hmore := (reportedCounts_step hr act).2
  cases act with
  | pollEncoder levelA levelB => exact h.pollEncoder hroom
  | central freeHeap => exact h.of_polls (central_drivers p s freeHeap).2.2.2.2 hmore
  | _ => exact h.of_polls rfl hmore

theorem EdgesReported.run {mutex : Bool} {acts : List Act} (h : s.EdgesReported)
    (hr : Application.Ready p OFFLINE_EVENT_QUEUE_SIZE mutex s.application)
    (hrun : s.NothingRefused p acts) : (s.run p acts).EdgesReported := by
  induction acts generalizing s with
  | nil => exact h
  | cons act acts ih =>
    obtain ⟨hfirst, hrest⟩ := (nothingRefused_cons s act acts).mp hrun
    exact ih (h.step hr hfirst) (reportedCounts_step hr act).1 hrest

/-- In every run the event queue refuses nothing exactly if in each part of
the run at most 32 more events are offered than `receive` is reached; and then
every edge the encoder counts is reported. -/
theorem nothing_refused_iff (p : Platform) (r : Readings) (mutex : Bool) (acts : List Act) :
    ((boot r mutex).NothingRefused p acts ↔
      ∀ before part after, acts = before ++ part ++ after →
        ((boot r mutex).run p before).offered p part ≤
          ((boot r mutex).run p before).received p part + EVENT_QUEUE_SIZE) ∧
    ((boot r mutex).NothingRefused p acts → ((boot r mutex).run p acts).EdgesReported) := by
  have hstart : (boot r mutex).EdgesReported :=
    ⟨fun poll hpoll => absurd hpoll List.not_mem_nil, List.Sublist.refl _⟩
  refine ⟨?_, hstart.run (Application.boot_ready p _ mutex {})⟩
  have hempty : (boot r mutex).eventQueue.items.length = 0 := rfl
  have hcapacity : (boot r mutex).eventQueue.capacity = EVENT_QUEUE_SIZE := rfl
  rw [nothingRefused_iff_refusals, hempty, hcapacity, Traffic.refusals_empty_iff]
  constructor
  · rintro h before part after rfl
    exact h _ (traffic_of_part _ before part after)
  · intro h part hpart
    obtain ⟨before, now, after, hsplit, rfl⟩ := part_of_traffic hpart
    exact h before now after hsplit

end Station

end KaizenStation.Firmware
