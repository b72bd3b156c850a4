/-
KaizenStation.Firmware.SettlingTheorems — a station whose inputs stand still
settles.

The central task empties the queue, and from then on every poll finds room, as
long as no more than 27 events are posted. A digital level that has been
sampled, and is polled again when the debounce interval is over, is reported;
so is an analog sample at once. With the broker at hand no report waits in the
end (`Settling.settled`), whatever the queue, the store and the drivers were
like before, in whatever order the tasks run, and whatever the Wi-Fi and the
MQTT manager post meanwhile, commands of the backend included.
-/
import KaizenStation.Firmware.OwedTheorems
import KaizenStation.Firmware.RecoveryTheorems

namespace KaizenStation.Firmware

open KaizenStation.Foundation

namespace Station

variable {p : Platform} {floor : Floor} {s : Station} {act : Act}

/-! ## A queue with room -/

/-- The events that may be posted: with four reports, they leave a place. -/
def POSTS : Nat := 27

/-- Room for every report that is owed, and for the `left` of the `posts`
events that are still to be posted. -/
structure Roomy (floor : Floor) (posts left : Nat) (s : Station) : Prop where
  equipped : s.Equipped
  load : s.load floor + left ≤ 4 + posts
  few : posts ≤ POSTS

variable {posts left : Nat}

theorem Roomy.hasRoom (h : s.Roomy floor posts left) : s.eventQueue.hasRoom = true := by
  have hitems : s.eventQueue.items.length ≤ s.load floor := Nat.le_add_right _ _
  have hload := h.load
  have hfew := h.few
  refine decide_eq_true ?_
  rw [h.equipped.capacity]
  simp only [POSTS, EVENT_QUEUE_SIZE] at *
  omega

theorem Roomy.step (h : s.Roomy floor posts (left + if act.isPost then 1 else 0))
    (hshows : act.Shows floor) : (s.step p act).Roomy floor posts left := by
  have hstep := step_load p hshows s
  have hload := h.load
  exact ⟨h.equipped.step act, by omega, h.few⟩

theorem Roomy.run {acts : List Act} (h : s.Roomy floor posts (left + acts.countP Act.isPost))
    (hshows : ∀ act ∈ acts, act.Shows floor) : (s.run p acts).Roomy floor posts left :=
  foldl_spends (fun _ _ _ hs hshows => hs.step hshows) h hshows

/-- Enough statements for a full queue and four reports. -/
def DRAIN : Nat := 110

theorem Equipped.drained (h : s.Equipped) {acts : List Act} (hshows : ∀ act ∈ acts, act.Shows floor)
    (hposts : acts.countP Act.isPost + left ≤ posts) (hfew : posts ≤ POSTS)
    (hcentral : DRAIN + 3 * posts ≤ acts.countP Act.isCentral) :
    (s.run p acts).Roomy floor posts left := by
  have hrank : s.untilEmpty floor ≤ DRAIN := by
    have hitems := s.eventQueue.bounded
    have howes := owes_le floor s
    have hpoint : s.untilReceive ≤ 2 := by
      unfold untilReceive
      split <;> omega
    rw [h.capacity] at hitems
    simp only [EVENT_QUEUE_SIZE] at hitems
    simp only [untilEmpty, Station.load, DRAIN]
    omega
  have hticks : s.untilEmpty floor + 3 * acts.countP Act.isPost ≤ acts.countP Act.isCentral := by
    omega
  obtain ⟨before, after, rfl, hempty⟩ := (empties p floor).reaches trivial hshows hticks
  have hload : (s.run p before).load floor ≤ 4 := by
    have hnone : (s.run p before).eventQueue.items = [] := hempty
    rw [Station.load, hnone, List.length_nil, Nat.zero_add]
    exact owes_le floor _
  have hequipped : (s.run p before).Equipped :=
    foldl_keeps (fun s act hs _ => hs.step act) h fun act hact =>
      hshows act (List.mem_append_left after hact)
  rw [List.countP_append] at hposts
  have hroomy : (s.run p before).Roomy floor posts (left + after.countP Act.isPost) :=
    ⟨hequipped, by omega, hfew⟩
  show (List.foldl (Station.step p) s (before ++ after)).Roomy floor posts left
  rw [List.foldl_append]
  exact hroomy.run fun act hact => hshows act (List.mem_append_right before hact)

/-! ## A store that stays empty -/

variable (p) in
/-- From here on the broker serves every call. -/
def ServedOn (s : Station) : Prop := ∀ k, s.application.calls ≤ k → (p.env k).Serves

theorem Tracks.calls_step {mutex : Bool} (h : Tracks p mutex s) (hact : act.Quiet) :
    s.application.calls ≤ (s.step p act).application.calls := by
  cases (h.moves hact).2 with
  | received event rest _ _ ha => exact ha ▸ Application.processEvent_calls _ event
  | flushed _ ha => exact ha ▸ Application.flushIfPending_calls _
  | beat freeHeap _ _ _ _ ha => exact ha ▸ Application.processEvent_calls _ _
  | _ => simp_all

/-- cJSON has a text for whatever waits in the store. -/
theorem Healthy.texts (h : s.Healthy p) (hc : p.cjson.Standard) :
    ∀ e ∈ s.application.offlineStore.events, (p.text e).isEmpty = false := by
  intro e he
  have hissued : e ∈ s.application.issued :=
    h.fed.sound.inOrder.subset (List.mem_append_left _ (List.mem_append_right _ he))
  exact Application.serialized_nonempty hc (h.fed.issued e hissued).2 _ _

/-- A served event leaves an empty store empty. -/
theorem processEvent_drained {a : Application} {event : Event}
    (hr : Application.Ready p OFFLINE_EVENT_QUEUE_SIZE true a) (hc : p.cjson.Standard)
    (hserved : ∀ k, a.calls ≤ k → (p.env k).Serves) (hempty : a.offlineStore.events = [])
    (hearly : Application.shouldPublish event = true → event.timestampMs.toNat < 10 ^ 15) :
    (a.processEvent p event).offlineStore.events = [] := by
  have htext : ∀ e ∈ a.offlineStore.events ++ a.outgoing event, (p.text e).isEmpty = false := by
    intro e he
    rw [hempty, List.nil_append, Application.outgoing] at he
    split at he
    · next hpub =>
      rw [List.mem_singleton.mp he]
      have hnumbered : ({ event with sequenceId := a.nextSequenceId } : Event).timestampMs.toNat <
          10 ^ 15 := hearly hpub
      exact Application.serialized_nonempty hc hnumbered _ _
    · cases he
  rcases Application.processEvent_served hr (fun k hk _ => hserved k hk) htext with
    ⟨hdrained, -⟩ | ⟨-, -, hsame⟩
  · exact hdrained
  · rw [hsame, hempty]

/-- A served flush empties the store. -/
theorem flush_drained (h : s.Healthy p) (hc : p.cjson.Standard) (hserved : s.ServedOn p) :
    (s.application.flushIfPending p).offlineStore.events = [] :=
  (Application.flushIfPending_served h.fed.ready (fun k hk _ => hserved k hk) (h.texts hc)).drained

variable (p) in
/-- What holds while the inputs stand still and the broker serves. -/
structure Steady (s : Station) : Prop where
  healthy : s.Healthy p
  equipped : s.Equipped
  served : s.ServedOn p

theorem Steady.step (h : s.Steady p) (hshows : act.Shows floor) (hearly : act.Early) :
    (s.step p act).Steady p :=
  ⟨h.healthy.step hshows.quiet hearly, h.equipped.step act,
    fun k hk => h.served k (Nat.le_trans (h.healthy.tracks.calls_step hshows.quiet) hk)⟩

theorem Steady.store_empty (h : s.Steady p) (hc : p.cjson.Standard) (hact : act.Quiet)
    (hempty : s.application.offlineStore.events = []) :
    (s.step p act).application.offlineStore.events = [] := by
  have hr := h.healthy.fed.ready
  cases (h.healthy.tracks.moves hact).2 with
  | idle _ ha => rw [ha, hempty]
  | reported _ _ _ _ ha => rw [ha, hempty]
  | posted _ _ _ _ ha => rw [ha, hempty]
  | flushed _ ha =>
    rw [ha]
    exact flush_drained h.healthy hc h.served
  | received event rest hq _ ha =>
    rw [ha]
    exact processEvent_drained hr hc h.served hempty
      (h.healthy.queued event (hq ▸ List.mem_cons_self)).2
  | beat freeHeap _ _ _ _ ha =>
    rw [ha]
    exact processEvent_drained hr hc h.served hempty fun _ => h.healthy.early

/-- The statements of the loop up to the next flush. -/
def untilFlushed (s : Station) : Nat :=
  match s.loopPoint with
  | .flush => 1
  | .receive => 2
  | .heartbeat => 3

theorem flushes (hc : p.cjson.Standard) (floor : Floor) :
    Countdown (step p) (fun act => act.Shows floor ∧ act.Early) (Steady p)
      (fun s => s.application.offlineStore.events = []) untilFlushed Act.isCentral Act.isPost
      0 where
  keep s act hs hact := hs.step hact.1 hact.2
  count s act hs hact _ := by
    cases hcentral : act.isCentral with
    | false =>
      obtain ⟨-, hpoint⟩ := input_load p hact.1 hcentral s
      refine .inr ?_
      unfold untilFlushed
      rw [hpoint]
      simp
    | true =>
      cases act with
      | central freeHeap =>
        rcases s.central_queue p freeHeap with ⟨hpoint, hpoint', -⟩ | ⟨hpoint, -, -⟩ |
          ⟨hpoint, hpoint', -⟩
        · refine .inr ?_
          show (s.central p freeHeap).untilFlushed + 1 ≤ s.untilFlushed
          rw [untilFlushed, untilFlushed, hpoint, hpoint']
        · refine .inl ?_
          show (s.central p freeHeap).application.offlineStore.events = []
          have hcentral : s.central p freeHeap = s.flush p := by
            unfold central
            rw [hpoint]
          rw [hcentral]
          exact flush_drained hs.healthy hc hs.served
        · refine .inr ?_
          show (s.central p freeHeap).untilFlushed + 1 ≤ s.untilFlushed
          rw [untilFlushed, untilFlushed, hpoint, hpoint']
      | _ => cases hcentral
  zero s _ hzero := by
    unfold untilFlushed at hzero
    split at hzero <;> cases hzero

end Station

/-! ## A digital input that is read twice -/

/-- One of the two digital inputs of the station. -/
structure DigitalSource where
  source : UInt32
  get : Station → DigitalInput
  level : Floor → Nat
  /-- An act reads the input or leaves its driver alone. -/
  step : ∀ (p : Platform) (floor : Floor) (s : Station) (act : Act), act.Shows floor →
    (act.reads = source ∧ ∃ stamp, get (s.step p act) =
      ((get s).update s.eventQueue (level floor) s.nowMs stamp).1) ∨
    (act.reads ≠ source ∧ get (s.step p act) = get s)
  past : ∀ s, s.Equipped → (get s).lastChangeTimeMs ≤ s.nowMs
  debounce : ∀ s, s.Wired → (get s).debounceMs = DIGITAL_DEBOUNCE_MS

namespace DigitalSource

def button : DigitalSource where
  source := 1
  get := Station.buttonInput
  level := Floor.buttonLevel
  step := by
    intro p floor s act h
    cases act with
    | pollButton level reading =>
      obtain rfl : level = floor.buttonLevel := h
      exact .inl ⟨rfl, s.tick reading, rfl⟩
    | pollAnalog sample => cases sample <;> exact .inr ⟨by simp [Act.reads], rfl⟩
    | central freeHeap =>
      exact .inr ⟨by simp [Act.reads], (s.central_drivers p freeHeap).1⟩
    | _ => exact .inr ⟨by simp [Act.reads], rfl⟩
  past _ h := h.buttonTime
  debounce _ h := h.button.debounceMs

def toggle : DigitalSource where
  source := 2
  get := Station.toggleInput
  level := Floor.toggleLevel
  step := by
    intro p floor s act h
    cases act with
    | pollToggle level reading =>
      obtain rfl : level = floor.toggleLevel := h
      exact .inl ⟨rfl, s.tick reading, rfl⟩
    | pollAnalog sample => cases sample <;> exact .inr ⟨by simp [Act.reads], rfl⟩
    | central freeHeap =>
      exact .inr ⟨by simp [Act.reads], (s.central_drivers p freeHeap).2.1⟩
    | _ => exact .inr ⟨by simp [Act.reads], rfl⟩
  past _ h := h.toggleTime
  debounce _ h := h.toggle.debounceMs

variable (d : DigitalSource) {p : Platform} {floor : Floor} {s : Station} {act : Act} {time : Nat}

/-- The driver has seen what the input shows, no later than at this time. -/
def Sampled (floor : Floor) (time : Nat) (s : Station) : Prop :=
  (d.get s).Sampled (d.level floor) time

variable {d}

theorem Sampled.step (h : d.Sampled floor time s) (hshows : act.Shows floor) :
    d.Sampled floor time (s.step p act) := by
  rcases d.step p floor s act hshows with ⟨-, stamp, hpoll⟩ | ⟨-, hsame⟩
  · rw [Sampled, hpoll]
    exact DigitalInput.Sampled.update h _ _ _
  · rw [Sampled, hsame]
    exact h

theorem Sampled.mono (h : d.Sampled floor time s) {time' : Nat} (hle : time ≤ time') :
    d.Sampled floor time' s :=
  ⟨h.lastRawState, Nat.le_trans h.lastChangeTimeMs hle⟩

/-- A poll samples. -/
theorem sampled_of_read (h : s.Equipped) (hshows : act.Shows floor)
    (hreads : act.reads = d.source) :
    d.Sampled floor (s.step p act).nowMs.toNat (s.step p act) := by
  rcases d.step p floor s act hshows with ⟨-, stamp, hpoll⟩ | ⟨hother, -⟩
  · refine Sampled.mono ?_ (UInt64.le_iff_toNat_le.mp (s.le_step p act))
    rw [Sampled, hpoll]
    exact DigitalInput.update_sampled _ _ _ _ (d.past s h)
  · exact absurd hreads hother

theorem owes_step (d : DigitalSource) (hshows : act.Shows floor)
    (h : (d.get s).owes (d.level floor) = 0) :
    (d.get (s.step p act)).owes (d.level floor) = 0 := by
  rcases d.step p floor s act hshows with ⟨-, stamp, hpoll⟩ | ⟨-, hsame⟩
  · have hle := ((d.get s).update_owes s.eventQueue (d.level floor) s.nowMs stamp).2
    rw [hpoll]
    omega
  · rw [hsame, h]

/-- A poll after the debounce interval leaves nothing owed. -/
theorem paid_of_read (h : d.Sampled floor time s) (hroom : s.eventQueue.hasRoom = true)
    (hwired : s.Wired) (hlate : time + DIGITAL_DEBOUNCE_MS.toNat ≤ s.nowMs.toNat)
    (hshows : act.Shows floor) (hreads : act.reads = d.source) :
    (d.get (s.step p act)).owes (d.level floor) = 0 := by
  rcases d.step p floor s act hshows with ⟨-, stamp, hpoll⟩ | ⟨hother, -⟩
  · rw [hpoll, DigitalInput.owes, if_pos]
    rw [← d.debounce s hwired] at hlate
    exact DigitalInput.Sampled.settles h hroom stamp hlate
  · exact absurd hreads hother

end DigitalSource

/-! ## The way to a settled station -/

namespace Station

variable {p : Platform} {floor : Floor} {posts left : Nat} {s : Station} {act : Act}

variable (p floor posts) in
/-- The queue has been empty and the store is. -/
structure Drained (left : Nat) (s : Station) : Prop where
  steady : s.Steady p
  roomy : s.Roomy floor posts left
  store : s.application.offlineStore.events = []

theorem Drained.step (hc : p.cjson.Standard)
    (h : s.Drained p floor posts (left + if act.isPost then 1 else 0))
    (hact : act.Shows floor ∧ act.Early) : (s.step p act).Drained p floor posts left :=
  ⟨h.steady.step hact.1 hact.2, h.roomy.step hact.1, h.steady.store_empty hc hact.1.quiet h.store⟩

theorem Drained.run (hc : p.cjson.Standard) {acts : List Act}
    (h : s.Drained p floor posts (left + acts.countP Act.isPost))
    (hacts : ∀ act ∈ acts, act.Shows floor ∧ act.Early) :
    (s.run p acts).Drained p floor posts left :=
  foldl_spends (fun _ _ _ hs hact => hs.step hc hact) h hacts

theorem Steady.drained (hc : p.cjson.Standard) (h : s.Steady p) {acts : List Act}
    (hacts : ∀ act ∈ acts, act.Shows floor ∧ act.Early)
    (hposts : acts.countP Act.isPost + left ≤ posts) (hfew : posts ≤ POSTS)
    (hcentral : DRAIN + 3 * posts ≤ acts.countP Act.isCentral) :
    (s.run p acts).Drained p floor posts left := by
  have hpoint : s.untilFlushed ≤ DRAIN := by
    unfold untilFlushed
    split <;> decide
  obtain ⟨hsteady, hstore⟩ := (flushes hc floor).reached
    (fun s act hs hact hempty => hs.store_empty hc hact.1.quiet hempty) h hacts (by omega)
  exact ⟨hsteady, h.equipped.drained (fun act hact => (hacts act hact).1) hposts hfew hcentral,
    hstore⟩

/-- Every input has been read, the last one no later than at this time. -/
structure Looked (floor : Floor) (time : Nat) (s : Station) : Prop where
  button : DigitalSource.button.Sampled floor time s
  toggle : DigitalSource.toggle.Sampled floor time s
  encoder : s.rotaryEncoder.owes (RotaryEncoder.readState floor.levelA floor.levelB) = 0
  analog : s.analogInput.owes floor.rawValue = 0

theorem Looked.step {time : Nat} (h : s.Looked floor time) (hshows : act.Shows floor) :
    (s.step p act).Looked floor time := by
  obtain ⟨-, -, hencoder, hanalog⟩ := step_owes p hshows s
  exact ⟨h.button.step hshows, h.toggle.step hshows, Nat.le_zero.mp (h.encoder ▸ hencoder),
    Nat.le_zero.mp (h.analog ▸ hanalog)⟩

theorem Looked.run {time : Nat} (h : s.Looked floor time) {acts : List Act}
    (hshows : ∀ act ∈ acts, act.Shows floor) : (s.run p acts).Looked floor time :=
  foldl_keeps (fun _ _ hs hshows => hs.step hshows) h hshows

/-- The run reads the source. -/
def ReadsSource (acts : List Act) (source : UInt32) : Prop := ∃ act ∈ acts, act.reads = source

instance (acts : List Act) (source : UInt32) : Decidable (ReadsSource acts source) :=
  inferInstanceAs (Decidable (∃ act ∈ acts, act.reads = source))

theorem encoder_read (p : Platform) (hshows : act.Shows floor) (hreads : act.reads = 3)
    (s : Station) : (s.step p act).rotaryEncoder.owes
      (RotaryEncoder.readState floor.levelA floor.levelB) = 0 := by
  cases act with
  | pollEncoder levelA levelB =>
    obtain ⟨rfl, rfl⟩ : levelA = floor.levelA ∧ levelB = floor.levelB := hshows
    exact (s.rotaryEncoder.update_owes s.eventQueue floor.levelA floor.levelB s.nowMs).2
  | pollAnalog sample => cases sample <;> cases hreads
  | _ => cases hreads

theorem analog_read (h : s.Roomy floor posts left) (hshows : act.Shows floor)
    (hreads : act.reads = 4) : (s.step p act).analogInput.owes floor.rawValue = 0 := by
  cases act with
  | pollAnalog sample =>
    cases sample with
    | none => cases hreads
    | some rawValue =>
      obtain rfl : rawValue = floor.rawValue := hshows rawValue rfl
      exact AnalogInput.update_pays h.equipped.initialized h.hasRoom _ _
  | _ => cases hreads

/-- After a part of the run that reads every input, all have been read. -/
theorem Drained.looked (hc : p.cjson.Standard) {acts : List Act}
    (h : s.Drained p floor posts (left + acts.countP Act.isPost))
    (hacts : ∀ act ∈ acts, act.Shows floor ∧ act.Early)
    (hreads : ∀ source ∈ [1, 2, 3, 4], ReadsSource acts source) :
    (s.run p acts).Looked floor (s.run p acts).nowMs.toNat := by
  have hkeep : ∀ left (s : Station) (act : Act),
      s.Drained p floor posts (left + if act.isPost then 1 else 0) →
      act.Shows floor ∧ act.Early → (s.step p act).Drained p floor posts left :=
    fun left s act hs hact => hs.step hc hact
  have hdigital : ∀ d : DigitalSource, ReadsSource acts d.source →
      d.Sampled floor (s.run p acts).nowMs.toNat (s.run p acts) := by
    intro d hread
    refine foldl_hits (Drained p floor posts) (fun s => d.Sampled floor s.nowMs.toNat s) hkeep
      ?_ ?_ h hacts hread
    · intro _ s act hs hact hsource
      exact DigitalSource.sampled_of_read hs.roomy.equipped hact.1 hsource
    · intro s act hsampled hact
      exact (hsampled.step hact.1).mono (UInt64.le_iff_toNat_le.mp (s.le_step p act))
  refine ⟨hdigital .button (hreads 1 (by decide)), hdigital .toggle (hreads 2 (by decide)), ?_, ?_⟩
  · refine foldl_hits (Drained p floor posts) (fun s => s.rotaryEncoder.owes
      (RotaryEncoder.readState floor.levelA floor.levelB) = 0) hkeep ?_ ?_ h hacts
        (hreads 3 (by decide))
    · intro _ s act _ hact hsource
      exact encoder_read p hact.1 hsource s
    · intro s act hpaid hact
      exact Nat.le_zero.mp (hpaid ▸ (step_owes p hact.1 s).2.2.1)
  · refine foldl_hits (Drained p floor posts) (fun s => s.analogInput.owes floor.rawValue = 0)
      hkeep ?_ ?_ h hacts (hreads 4 (by decide))
    · intro _ s act hs hact hsource
      exact analog_read hs.roomy hact.1 hsource
    · intro s act hpaid hact
      exact Nat.le_zero.mp (hpaid ▸ (step_owes p hact.1 s).2.2.2)

/-- Once the debounce interval is over, button and toggle are reported when
they are read. -/
theorem Looked.paid (hc : p.cjson.Standard) {time : Nat} (h : s.Looked floor time)
    (hlate : time + DIGITAL_DEBOUNCE_MS.toNat ≤ s.nowMs.toNat) {acts : List Act}
    (hdrained : s.Drained p floor posts (left + acts.countP Act.isPost))
    (hacts : ∀ act ∈ acts, act.Shows floor ∧ act.Early)
    (hreads : ∀ source ∈ [1, 2], ReadsSource acts source) : (s.run p acts).owes floor = 0 := by
  have hdigital : ∀ d : DigitalSource, (∀ s, s.Looked floor time → d.Sampled floor time s) →
      ReadsSource acts d.source → (d.get (s.run p acts)).owes (d.level floor) = 0 := by
    intro d hsampled hread
    refine foldl_hits (fun left (s : Station) => s.Drained p floor posts left ∧
        s.Looked floor time ∧ time + DIGITAL_DEBOUNCE_MS.toNat ≤ s.nowMs.toNat)
      (fun s => (d.get s).owes (d.level floor) = 0) ?_ ?_ ?_ ⟨hdrained, h, hlate⟩ hacts hread
    · intro _ s act hs hact
      exact ⟨hs.1.step hc hact, hs.2.1.step hact.1,
        Nat.le_trans hs.2.2 (UInt64.le_iff_toNat_le.mp (s.le_step p act))⟩
    · intro _ s act hs hact hsource
      exact DigitalSource.paid_of_read (hsampled s hs.2.1) hs.1.roomy.hasRoom
        hs.1.steady.healthy.tracks.wired hs.2.2 hact.1 hsource
    · intro s act hpaid hact
      exact d.owes_step hact.1 hpaid
  have hlooked := h.run (p := p) fun act hact => (hacts act hact).1
  have hbutton : (s.run p acts).buttonInput.owes floor.buttonLevel = 0 :=
    hdigital .button (fun _ hs => hs.button) (hreads 1 (by decide))
  have htoggle : (s.run p acts).toggleInput.owes floor.toggleLevel = 0 :=
    hdigital .toggle (fun _ hs => hs.toggle) (hreads 2 (by decide))
  rw [owes, hbutton, htoggle, hlooked.encoder, hlooked.analog]

/-! ## The end -/

/-- A driver that owes nothing queues nothing, so only what was posted comes
to an empty queue. -/
theorem Tracks.foreign_step {mutex : Bool} (h : Tracks p mutex s) (hshows : act.Shows floor)
    (hpaid : s.owes floor = 0) (hqueue : ∀ e ∈ s.eventQueue.items, e.Foreign) :
    ∀ e ∈ (s.step p act).eventQueue.items, e.Foreign := by
  by_cases hpoll : act.source = 0
  · cases act with
    | wait => exact hqueue
    | post event =>
      intro e he
      have he' : e ∈ (s.eventQueue.send event).1.items := he
      rw [EventQueue.send_items, List.mem_append] at he'
      rcases he' with he' | he'
      · exact hqueue e he'
      · split at he'
        · exact List.mem_singleton.mp he' ▸ hshows.1
        · cases he'
    | central freeHeap =>
      show ∀ e ∈ (s.central p freeHeap).eventQueue.items, e.Foreign
      rcases s.central_queue p freeHeap with ⟨-, -, hq⟩ | ⟨-, -, hq⟩ | ⟨-, -, hq⟩ <;> rw [hq]
      · exact fun e he => hqueue e (List.mem_of_mem_tail he)
      · exact hqueue
      · exact hqueue
    | _ => cases hpoll
  · rcases (h.polled hpoll).2 with hq | ⟨event, -, -, hq⟩
    · rw [hq]
      exact hqueue
    · -- the load would have grown
      have hload := step_load p hshows s
      have hpost : act.isPost = false := by cases act <;> first | rfl | exact absurd rfl hpoll
      rw [hpost, if_neg Bool.false_ne_true, load, load, hpaid, hq, List.length_append,
        List.length_singleton] at hload
      omega

variable (p floor posts) in
/-- Nothing is owed, and only posted events are queued. -/
structure Paid (left : Nat) (s : Station) : Prop where
  steady : s.Steady p
  store : s.application.offlineStore.events = []
  owes : s.owes floor = 0
  queue : ∀ e ∈ s.eventQueue.items, e.Foreign
  length : s.eventQueue.items.length + left ≤ posts

theorem Paid.step (hc : p.cjson.Standard)
    (h : s.Paid p floor posts (left + if act.isPost then 1 else 0))
    (hact : act.Shows floor ∧ act.Early) : (s.step p act).Paid p floor posts left := by
  have howes : (s.step p act).owes floor = 0 := Nat.le_zero.mp (h.owes ▸ step_owes_total p hact.1 s)
  have hload := step_load p hact.1 s
  have hlength := h.length
  rw [load, load, howes, h.owes] at hload
  exact ⟨h.steady.step hact.1 hact.2, h.steady.store_empty hc hact.1.quiet h.store, howes,
    h.steady.healthy.tracks.foreign_step hact.1 h.owes h.queue, by omega⟩

/-- Enough statements for four reports. -/
def FINISH : Nat := 14

theorem Drained.finished (hc : p.cjson.Standard) {acts : List Act}
    (h : s.Drained p floor posts (acts.countP Act.isPost)) (hpaid : s.owes floor = 0)
    (hacts : ∀ act ∈ acts, act.Shows floor ∧ act.Early)
    (hcentral : FINISH + 3 * posts ≤ acts.countP Act.isCentral) :
    (s.run p acts).Paid p floor (acts.countP Act.isPost) 0 := by
  have hticks : s.untilEmpty floor + 3 * acts.countP Act.isPost ≤ acts.countP Act.isCentral := by
    have hload := h.roomy.load
    have hpoint : s.untilReceive ≤ 2 := by
      unfold untilReceive
      split <;> omega
    simp only [FINISH] at hcentral
    simp only [untilEmpty]
    omega
  obtain ⟨before, after, rfl, hempty⟩ := (empties p floor).reaches trivial
    (fun act hact => (hacts act hact).1) hticks
  have hbefore : ∀ act ∈ before, act.Shows floor ∧ act.Early := fun act hact =>
    hacts act (List.mem_append_left after hact)
  have hcalm : ∀ (s : Station) (act : Act),
      s.Steady p ∧ s.application.offlineStore.events = [] → act.Shows floor ∧ act.Early →
      (s.step p act).Steady p ∧ (s.step p act).application.offlineStore.events = [] :=
    fun s act hs hact => ⟨hs.1.step hact.1 hact.2, hs.1.store_empty hc hact.1.quiet hs.2⟩
  obtain ⟨hsteady, hstore⟩ : (s.run p before).Steady p ∧
      (s.run p before).application.offlineStore.events = [] :=
    foldl_keeps hcalm ⟨h.steady, h.store⟩ hbefore
  have hkeep : ∀ (s : Station) (act : Act), s.owes floor = 0 → act.Shows floor ∧ act.Early →
      (s.step p act).owes floor = 0 :=
    fun s act hs hact => Nat.le_zero.mp (hs ▸ step_owes_total p hact.1 s)
  have howes : (s.run p before).owes floor = 0 := foldl_keeps hkeep hpaid hbefore
  have hnone : (s.run p before).eventQueue.items = [] := hempty
  have hstart : (s.run p before).Paid p floor ((before ++ after).countP Act.isPost)
      (0 + after.countP Act.isPost) := by
    refine ⟨hsteady, hstore, howes, by simp [hnone], ?_⟩
    rw [hnone, List.countP_append]
    simp
  show (List.foldl (Station.step p) s (before ++ after)).Paid p floor _ 0
  rw [List.foldl_append]
  exact foldl_spends (fun _ _ _ hs hact => hs.step hc hact) hstart fun act hact =>
    hacts act (List.mem_append_right before hact)

/-- No report waits, and no more than `waiting` events that were posted; the
drivers have reported what the inputs show, the percentage to less than the
deadband. -/
structure Settled (floor : Floor) (waiting : Nat) (s : Station) : Prop where
  queue : ∀ e ∈ s.eventQueue.items, e.Foreign
  short : s.eventQueue.items.length ≤ waiting
  store : s.application.offlineStore.events = []
  button : s.buttonInput.reported? = some (DigitalInput.readRawState floor.buttonLevel)
  toggle : s.toggleInput.reported? = some (DigitalInput.readRawState floor.toggleLevel)
  encoder : s.rotaryEncoder.previousState = RotaryEncoder.readState floor.levelA floor.levelB
  analog : s.analogInput.initialEventPending = false
  near : |(AnalogInput.rawToPercent floor.rawValue).toInt - s.analogInput.valuePercent.toInt| < 2

theorem Paid.settled (h : s.Paid p floor posts 0) : s.Settled floor posts := by
  have howes : s.buttonInput.owes floor.buttonLevel = 0 ∧
      s.toggleInput.owes floor.toggleLevel = 0 ∧
      s.rotaryEncoder.owes (RotaryEncoder.readState floor.levelA floor.levelB) = 0 ∧
      s.analogInput.owes floor.rawValue = 0 := by
    have hsum := h.owes
    unfold Station.owes at hsum
    omega
  obtain ⟨hbutton, htoggle, hencoder, hanalog⟩ := howes
  have hsame : s.analogInput.unchanged (AnalogInput.rawToPercent floor.rawValue) = true := by
    by_contra hmoved
    rw [AnalogInput.owes, if_neg hmoved] at hanalog
    cases hanalog
  have hpending : s.analogInput.initialEventPending = false := by
    unfold AnalogInput.unchanged at hsame
    simpa using (Bool.and_eq_true_iff.mp hsame).1
  have hequipped := h.steady.equipped
  refine ⟨h.queue, h.length, h.store, ?_, ?_, ?_, hpending, ?_⟩
  · by_contra hnews
    rw [DigitalInput.owes, if_neg hnews] at hbutton
    cases hbutton
  · by_contra hnews
    rw [DigitalInput.owes, if_neg hnews] at htoggle
    cases htoggle
  · by_contra hnews
    rw [RotaryEncoder.owes, if_neg hnews] at hencoder
    cases hencoder
  · have hnear := (AnalogInput.unchanged_iff hpending
      (AnalogInput.rawToPercent_percentage floor.rawValue) hequipped.stablePercent).mp hsame
    rw [hequipped.deadbandPercent] at hnear
    exact Int.not_le.mp hnear

variable (p floor) in
/-- The inputs stand still until the queue has been drained, every input has
been read, the debounce interval is over, button and toggle have been read
again, and the queue has been drained once more. Meanwhile up to 27 events are
posted, and each costs a turn of the loop whenever the queue is drained. -/
structure Settling (s : Station) (drain look pause again finish : List Act) : Prop where
  shows : ∀ act ∈ drain ++ look ++ pause ++ again ++ finish, act.Shows floor
  few : (drain ++ look ++ pause ++ again ++ finish).countP Act.isPost ≤ POSTS
  drains : DRAIN + 3 * (drain ++ look ++ pause ++ again ++ finish).countP Act.isPost ≤
    drain.countP Act.isCentral
  looks : ∀ source ∈ [1, 2, 3, 4], ReadsSource look source
  pauses : (s.run p (drain ++ look)).nowMs.toNat + DIGITAL_DEBOUNCE_MS.toNat ≤
    (s.run p (drain ++ look ++ pause)).nowMs.toNat
  looksAgain : ∀ source ∈ [1, 2], ReadsSource again source
  finishes : FINISH + 3 * (drain ++ look ++ pause ++ again ++ finish).countP Act.isPost ≤
    finish.countP Act.isCentral

theorem run_append (p : Platform) (s : Station) (acts acts' : List Act) :
    s.run p (acts ++ acts') = (s.run p acts).run p acts' := List.foldl_append ..

/-- From whatever state, a station settles. -/
theorem Settling.settled (hc : p.cjson.Standard) (hs : s.Steady p)
    {drain look pause again finish : List Act}
    (h : Settling p floor s drain look pause again finish)
    (hearly : ∀ act ∈ drain ++ look ++ pause ++ again ++ finish, act.Early) :
    (s.run p (drain ++ look ++ pause ++ again ++ finish)).Settled floor
      (finish.countP Act.isPost) := by
  have hacts : ∀ acts : List Act, acts ⊆ drain ++ look ++ pause ++ again ++ finish →
      ∀ act ∈ acts, act.Shows floor ∧ act.Early :=
    fun acts hsub act hact => ⟨h.shows act (hsub hact), hearly act (hsub hact)⟩
  have hposts : drain.countP Act.isPost + (finish.countP Act.isPost + again.countP Act.isPost +
      pause.countP Act.isPost + look.countP Act.isPost) ≤
      (drain ++ look ++ pause ++ again ++ finish).countP Act.isPost := by
    simp only [List.countP_append]
    omega
  -- what is left to be posted after each part
  have hdrained := hs.drained hc (hacts drain (by simp)) hposts h.few h.drains
  have hlook := hacts look (by intro; simp_all)
  have hlooked := hdrained.looked hc hlook h.looks
  have hdrained := hdrained.run hc hlook
  rw [← run_append] at hlooked hdrained
  have hpause := hacts pause (by intro; simp_all)
  have hpaused := hlooked.run (p := p) fun act hact => (hpause act hact).1
  have hdrained := hdrained.run hc hpause
  rw [← run_append] at hpaused hdrained
  have hagain := hacts again (by intro; simp_all)
  have hnothing := hpaused.paid hc h.pauses hdrained hagain h.looksAgain
  have hdrained := hdrained.run hc hagain
  rw [← run_append] at hnothing hdrained
  have hfinish := hacts finish (by intro; simp_all)
  have hpaid := hdrained.finished hc hnothing hfinish h.finishes
  rw [← run_append] at hpaid
  exact hpaid.settled

end Station

end KaizenStation.Firmware
