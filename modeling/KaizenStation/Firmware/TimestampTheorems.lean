/-
KaizenStation.Firmware.TimestampTheorems — the order of the timestamps MQTT
accepts.

Drivers stamp an event when they queue it, the number comes when the central
task takes it out, and a heartbeat is stamped and numbered without going
through the queue. `stamps` lists the timestamps of the line and then of the
events that will join it; every act but an overtaking heartbeat keeps them in
order (`Timely.moves`).
-/
import KaizenStation.Firmware.StationRunTheorems

namespace KaizenStation.Firmware

namespace Station

/-- The events in the queue that will be numbered. -/
def waiting (s : Station) : List Event :=
  s.eventQueue.items.filter (fun e => Application.shouldPublish e)

def stamps (s : Station) : List UInt64 :=
  (s.application.line ++ s.waiting).map Event.timestampMs

/-- The next statement makes a heartbeat, MQTT is connected when it asks, and
an older event is still in the queue. -/
def Overtakes (p : Platform) (s : Station) : Prop :=
  s.loopPoint = .heartbeat ∧ s.heartbeatDue = true ∧
    (p.env s.application.calls).connected = true ∧ ∃ e ∈ s.waiting, e.timestampMs < s.nowMs

instance (p : Platform) (s : Station) : Decidable (Overtakes p s) := by
  unfold Overtakes
  infer_instance

structure Timely (s : Station) : Prop where
  ordered : s.stamps.Pairwise (· ≤ ·)
  past : ∀ t ∈ s.stamps, t ≤ s.nowMs

theorem Timely.sublist {s s' : Station} (h : s.Timely) (hs : s'.stamps.Sublist s.stamps)
    (hnow : s.nowMs ≤ s'.nowMs) : s'.Timely :=
  ⟨h.ordered.sublist hs, fun t ht => UInt64.le_trans (h.past t (hs.subset ht)) hnow⟩

variable {p : Platform} {mutex : Bool}

/-- A shorter line before the same queue. -/
theorem stamps_sublist {s s' : Station} (hline : s'.application.line.Sublist s.application.line)
    (hq : s'.waiting = s.waiting) : s'.stamps.Sublist s.stamps := by
  unfold stamps
  rw [hq]
  exact (hline.append (List.Sublist.refl _)).map _

theorem waiting_append {s s' : Station} {event : Event}
    (hq : s'.eventQueue.items = s.eventQueue.items ++ [event]) :
    s'.waiting = s.waiting ++ if Application.shouldPublish event then [event] else [] := by
  unfold waiting
  rw [hq, List.filter_append]
  cases h : Application.shouldPublish event <;> simp [h]

/-- Taking an event out of the queue moves its timestamp into the line, or
out of sight. -/
theorem stamps_received {s s' : Station} {event : Event} {rest : List Event}
    (hr : Application.Ready p OFFLINE_EVENT_QUEUE_SIZE mutex s.application)
    (hq : s.eventQueue.items = event :: rest) (hq' : s'.eventQueue.items = rest)
    (ha : s'.application = s.application.processEvent p event) :
    s'.stamps.Sublist s.stamps := by
  have hline := Application.processEvent_line hr event
  rw [← ha] at hline
  have hstamps : s.stamps = (s.application.line ++
      (if Application.shouldPublish event then
        [{ event with sequenceId := s.application.nextSequenceId }] else []) ++
      s'.waiting).map Event.timestampMs := by
    unfold stamps waiting
    rw [hq, hq']
    cases h : Application.shouldPublish event <;> simp [h]
  rw [hstamps]
  exact (hline.append (List.Sublist.refl _)).map _

/-- A report is stamped when it is queued, behind everything else. -/
theorem Timely.report {s s' : Station} (h : s.Timely) (hnow : s.nowMs ≤ s'.nowMs)
    (hstamps : s'.stamps = s.stamps ++ [s'.nowMs]) : s'.Timely := by
  have hle : ∀ t ∈ s.stamps, t ≤ s'.nowMs := fun t ht => UInt64.le_trans (h.past t ht) hnow
  constructor
  · rw [hstamps]
    exact List.pairwise_append.mpr ⟨h.ordered, List.pairwise_singleton _ _, by simpa using hle⟩
  · intro t ht
    rw [hstamps] at ht
    rcases List.mem_append.mp ht with ht | ht
    · exact hle t ht
    · rw [List.mem_singleton.mp ht]
      exact UInt64.le_refl _

/-- A heartbeat is stamped between the line and the queue. It fits there if
nothing in the queue is older. -/
theorem Timely.beat {s s' : Station} (h : s.Timely) (hnow : s.nowMs ≤ s'.nowMs)
    (hyoung : ∀ e ∈ s.waiting, s.nowMs ≤ e.timestampMs)
    (hsub : s'.stamps.Sublist (s.application.line.map Event.timestampMs ++
      s.nowMs :: s.waiting.map Event.timestampMs)) : s'.Timely := by
  have hordered := h.ordered
  have hpast := h.past
  simp only [stamps, List.map_append] at hordered hpast
  obtain ⟨hline, hwait, hcross⟩ := List.pairwise_append.mp hordered
  have hlate : ∀ t ∈ s.waiting.map Event.timestampMs, s.nowMs ≤ t := by
    intro t ht
    obtain ⟨e, he, rfl⟩ := List.mem_map.mp ht
    exact hyoung e he
  constructor
  · refine List.Pairwise.sublist hsub (List.pairwise_append.mpr
      ⟨hline, List.pairwise_cons.mpr ⟨hlate, hwait⟩, ?_⟩)
    intro t ht u hu
    rcases List.mem_cons.mp hu with rfl | hu
    · exact hpast t (List.mem_append_left _ ht)
    · exact hcross t ht u hu
  · intro t ht
    refine UInt64.le_trans ?_ hnow
    have hmem := hsub.subset ht
    simp only [List.mem_append, List.mem_cons] at hmem
    rcases hmem with ht | rfl | ht
    · exact hpast t (List.mem_append_left _ ht)
    · exact UInt64.le_refl _
    · exact hpast t (List.mem_append_right _ ht)

theorem Timely.moves {s s' : Station} {act : Act} (h : s.Timely)
    (hr : Application.Ready p OFFLINE_EVENT_QUEUE_SIZE mutex s.application)
    (hnow : s.nowMs ≤ s'.nowMs) (hm : Moves p s act s')
    (hno : ∀ freeHeap, act = .central freeHeap → ¬ Overtakes p s) : s'.Timely := by
  cases hm with
  | idle hq ha =>
    refine h.sublist (stamps_sublist (ha ▸ List.Sublist.refl _) ?_) hnow
    rw [waiting, hq, waiting]
  | flushed hq ha =>
    refine h.sublist (stamps_sublist (ha ▸ Application.flushIfPending_line hr) ?_) hnow
    rw [waiting, hq, waiting]
  | posted event _ hpub hq ha =>
    refine h.sublist (stamps_sublist (ha ▸ List.Sublist.refl _) ?_) hnow
    rw [waiting_append hq, hpub]
    simp
  | received event rest hq hq' ha => exact h.sublist (stamps_received hr hq hq' ha) hnow
  | reported event hrep hstamp hq ha =>
    refine h.report hnow ?_
    unfold stamps
    rw [ha, waiting_append hq, hrep.published, ← hstamp]
    simp
  | beat freeHeap hact hpoint hdue hq ha =>
    have hwait : s'.waiting = s.waiting := by rw [waiting, hq, waiting]
    cases hcon : (p.env s.application.calls).connected with
    | false =>
      have hline := Application.processEvent_disconnected hcon
        (Application.heartbeat s.nowMs freeHeap) rfl
      rw [← ha] at hline
      exact h.sublist (stamps_sublist (hline ▸ List.Sublist.refl _) hwait) hnow
    | true =>
      have hline := Application.processEvent_line hr (Application.heartbeat s.nowMs freeHeap)
      rw [← ha] at hline
      refine h.beat hnow ?_ ?_
      · intro e he
        exact UInt64.not_lt.mp fun hlt => hno freeHeap hact ⟨hpoint, hdue, hcon, e, he, hlt⟩
      · unfold stamps
        rw [hwait]
        have := (hline.append (List.Sublist.refl s.waiting)).map Event.timestampMs
        simpa [Application.shouldPublish, Application.heartbeat] using this

/-- In a run without an overtaking heartbeat the timestamps stay in order. -/
theorem run_timely (p : Platform) (r : Readings) (mutex : Bool) {acts : List Act}
    (hacts : ∀ act ∈ acts, act.Quiet)
    (hno : ∀ before freeHeap after, acts = before ++ .central freeHeap :: after →
      ¬ Overtakes p ((boot r mutex).run p before)) :
    ((boot r mutex).run p acts).Timely := by
  have hrun : ∀ {s : Station}, Tracks p mutex s → s.Timely → ∀ {acts : List Act},
      (∀ act ∈ acts, act.Quiet) →
      (∀ before freeHeap after, acts = before ++ .central freeHeap :: after →
        ¬ Overtakes p (s.run p before)) → (s.run p acts).Timely := by
    intro s h ht acts hacts hno
    induction acts generalizing s with
    | nil => exact ht
    | cons act acts ih =>
      have hact := hacts act List.mem_cons_self
      obtain ⟨hnow, hm⟩ := h.moves hact
      refine ih (h.step hact.foreign) (ht.moves h.ready hnow hm ?_)
        (fun a ha => hacts a (List.mem_cons_of_mem _ ha)) ?_
      · intro freeHeap hcentral
        exact hno [] freeHeap acts (by rw [hcentral]; rfl)
      · intro before freeHeap after hsplit
        exact hno (act :: before) freeHeap after (by rw [hsplit]; rfl)
  refine hrun (boot_tracks p r mutex) ⟨?_, ?_⟩ hacts hno
  · exact List.Pairwise.nil
  · intro t ht
    cases ht

end Station

end KaizenStation.Firmware
