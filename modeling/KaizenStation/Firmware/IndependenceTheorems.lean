/-
KaizenStation.Firmware.IndependenceTheorems — the network cannot touch what
is local.

`localPart` is what a station decides on its own: the logical state, the LED,
the counter and the numbers it has given. Flushing, publishing and buffering
leave it alone, in any state and under any answers, so an event changes it in
one way (`processEvent_localPart`), and two stations that process the same
events agree on it after every step, whatever their networks and stores do
(`network_independent`). Everything that is ever handed to MQTT or to the
store is an event that `shouldPublish` lets through.
-/
import KaizenStation.Firmware.CapacityTheorems

namespace KaizenStation.Firmware

open KaizenStation.Foundation

/-- The event an observation is about; of two, the one being pushed. -/
def Obs.subject : Obs → Event
  | .assigned event _ => event
  | .publish event _ _ => event
  | .unserializable event _ => event
  | .superseded _ newer => newer
  | .buffered event => event
  | .bufferFull event _ => event
  | .heartbeatDiscarded event _ _ => event

namespace Application

/-! ## The local part -/

structure LocalPart where
  stateManager : StateManager
  statusLed : LedDriver
  nextSequenceId : UInt32
  issued : List Event

def localPart (a : Application) : LocalPart where
  stateManager := a.stateManager
  statusLed := a.statusLed
  nextSequenceId := a.nextSequenceId
  issued := a.issued

/-- What one event makes of it. -/
def LocalPart.step (l : LocalPart) (event : Event) : LocalPart where
  stateManager := l.stateManager.handleEvent event
  statusLed := OutputManager.handleEvent l.statusLed event
  nextSequenceId := if shouldPublish event then l.nextSequenceId + 1 else l.nextSequenceId
  issued := l.issued ++
    if shouldPublish event then [{ event with sequenceId := l.nextSequenceId }] else []

/-- Of all observations only an assignment is local. -/
theorem localPart_observe (a : Application) {o : Obs} (h : o.assigned? = none) :
    (a.observe o).localPart = a.localPart := by
  rw [localPart, issued_observe, h]
  simp [localPart, observe]

section Network

variable (p : Platform)

theorem flushOne_localPart (a : Application) (event : Event) :
    (a.flushOne p event).1.localPart = a.localPart := by
  rcases flushOne_cases p a event with ⟨_, he⟩ | ⟨_, _, he⟩ | ⟨_, _, he⟩ <;> rw [he]
  · exact localPart_observe a.called.popHead (by rfl)
  · exact localPart_observe a.called.called (by rfl)
  · exact localPart_observe a.called.called (by rfl)

theorem flushLoop_localPart (a : Application) : (a.flushLoop p).localPart = a.localPart := by
  fun_induction flushLoop p a with
  | case1 a => rfl
  | case2 a event h hgo ih => rw [ih, flushOne_localPart]
  | case3 a event h hgo => exact flushOne_localPart p a event

theorem flushOfflineEvents_localPart (a : Application) :
    (a.flushOfflineEvents p).localPart = a.localPart := by
  unfold flushOfflineEvents isConnected
  cases (p.env a.calls).connected with
  | false => rfl
  | true => exact flushLoop_localPart p a.called

theorem flushIfPending_localPart (a : Application) :
    (a.flushIfPending p).localPart = a.localPart := by
  unfold flushIfPending
  split
  · exact flushOfflineEvents_localPart p a
  · rfl

theorem publishDirect_localPart (a : Application) (event : Event) :
    (a.publishDirect p event).1.localPart = a.localPart := by
  rcases publishDirect_cases p a event with he | he | he | ⟨_, _, he⟩ <;> rw [he]
  · rfl
  · rfl
  · exact localPart_observe a.called.called.called (by rfl)

theorem bufferEvent_localPart (a : Application) (event : Event) :
    (a.bufferEvent event).localPart = a.localPart := by
  unfold bufferEvent
  split
  · exact localPart_observe a (by rfl)
  · have hnone := (supersededObs_silent a.offlineStore event).1
    simp only [localPart, issued, List.filterMap_append, hnone]
    cases (a.offlineStore.push event).2 <;> simp [Obs.assigned?]

theorem publishOrBuffer_localPart (a : Application) (event : Event) :
    (a.publishOrBuffer p event).localPart = a.localPart := by
  have hsent : ((a.flushIfPending p).publishDirect p event).1.localPart = a.localPart := by
    rw [publishDirect_localPart, flushIfPending_localPart]
  unfold publishOrBuffer
  simp only
  split
  · exact hsent
  · rw [bufferEvent_localPart, hsent]

theorem onConnected_localPart (a : Application) (event : Event) :
    (a.onConnected p event).localPart = a.localPart := by
  unfold onConnected
  split
  · exact flushOfflineEvents_localPart p a
  · rfl

/-- Whatever the network answers, an event makes the same of the local
part. -/
theorem processEvent_localPart (a : Application) (event : Event) :
    (a.processEvent p event).localPart = a.localPart.step event := by
  have happlied : ∀ b : Application, (b.applied event).localPart =
      { b.localPart with
        stateManager := b.localPart.stateManager.handleEvent event
        statusLed := OutputManager.handleEvent b.localPart.statusLed event } := fun _ => rfl
  cases h : shouldPublish event with
  | false =>
    rw [processEvent_local h, happlied, onConnected_localPart]
    simp [LocalPart.step, h]
  | true =>
    have hnumbered : ∀ b : Application, (b.numbered event).localPart =
        { b.localPart with
          nextSequenceId := b.localPart.nextSequenceId + 1
          issued := b.localPart.issued ++
            [{ event with sequenceId := b.localPart.nextSequenceId }] } := by
      intro b
      rw [numbered, localPart, issued_observe]
      rfl
    rw [processEvent_published h, publishOrBuffer_localPart, hnumbered, happlied,
      onConnected_localPart]
    simp [LocalPart.step, h]

theorem processEvent_stateManager (a : Application) (event : Event) :
    (a.processEvent p event).stateManager = a.stateManager.handleEvent event :=
  congrArg LocalPart.stateManager (processEvent_localPart p a event)

theorem processEvent_statusLed (a : Application) (event : Event) :
    (a.processEvent p event).statusLed = OutputManager.handleEvent a.statusLed event :=
  congrArg LocalPart.statusLed (processEvent_localPart p a event)

theorem process_localPart (a : Application) (events : List Event) :
    (a.process p events).localPart = events.foldl LocalPart.step a.localPart := by
  induction events generalizing a with
  | nil => rfl
  | cons event events ih =>
    rw [List.foldl_cons, ← processEvent_localPart p a event]
    exact ih (a.processEvent p event)

/-! ## What is handed on -/

/-- Only events to be published are buffered or were ever handed on. -/
structure Outgoing (a : Application) : Prop where
  buffered : ∀ event ∈ a.offlineStore.events, shouldPublish event = true
  traced : ∀ o ∈ a.trace, shouldPublish o.subject = true

theorem Outgoing.observe {a : Application} (h : a.Outgoing) {o : Obs}
    (ho : shouldPublish o.subject = true) : (a.observe o).Outgoing := by
  refine ⟨h.buffered, fun o' ho' => ?_⟩
  rcases List.mem_append.mp ho' with hold | hnew
  · exact h.traced o' hold
  · rw [List.mem_singleton.mp hnew]
    exact ho

theorem Outgoing.called {a : Application} (h : a.Outgoing) : a.called.Outgoing :=
  ⟨h.buffered, h.traced⟩

theorem Outgoing.popHead {a : Application} (h : a.Outgoing) : a.popHead.Outgoing := by
  refine ⟨fun event hevent => h.buffered event ?_, h.traced⟩
  have hmem : event ∈ a.offlineStore.pop.1.events := hevent
  unfold OfflineEventStore.pop at hmem
  split at hmem
  · exact hmem
  · cases hs : a.offlineStore.events with
    | nil => simp [hs] at hmem
    | cons first rest =>
      simp only [hs] at hmem
      exact List.mem_cons_of_mem _ hmem

/-- A push keeps what it keeps and adds the event at most. -/
theorem mem_push {s : OfflineEventStore} {event e : Event} (h : e ∈ (s.push event).1.events) :
    e ∈ s.events ∨ e = event := by
  have hcoalesce : ∀ e ∈ (s.coalesce event).events, e ∈ s.events := by
    intro e he
    unfold OfflineEventStore.coalesce at he
    split at he
    · exact List.mem_of_mem_eraseP he
    · exact he
  unfold OfflineEventStore.push at h
  split at h
  · exact .inl h
  · simp only at h
    split at h
    · exact .inl (hcoalesce e h)
    · rcases List.mem_append.mp h with hold | hnew
      · exact .inl (hcoalesce e hold)
      · exact .inr (List.mem_singleton.mp hnew)

theorem Outgoing.flushOne {a : Application} (h : a.Outgoing) {event : Event}
    (hpub : shouldPublish event = true) : (a.flushOne p event).1.Outgoing := by
  rcases flushOne_cases p a event with ⟨_, he⟩ | ⟨_, _, he⟩ | ⟨_, _, he⟩ <;> rw [he]
  · exact h.called.popHead.observe hpub
  · exact h.called.called.observe hpub
  · refine Outgoing.popHead ?_
    exact h.called.called.observe hpub

theorem Outgoing.flushLoop {a : Application} (h : a.Outgoing) : (a.flushLoop p).Outgoing := by
  fun_induction Application.flushLoop p a with
  | case1 a => exact h
  | case2 a event hpeek hgo ih =>
    exact ih (h.flushOne p (h.buffered event (by rw [popHead_events hpeek]; simp)))
  | case3 a event hpeek hgo =>
    exact h.flushOne p (h.buffered event (by rw [popHead_events hpeek]; simp))

theorem Outgoing.flushOfflineEvents {a : Application} (h : a.Outgoing) :
    (a.flushOfflineEvents p).Outgoing := by
  unfold Application.flushOfflineEvents isConnected
  cases (p.env a.calls).connected with
  | false => exact h.called
  | true => exact h.called.flushLoop p

theorem Outgoing.flushIfPending {a : Application} (h : a.Outgoing) :
    (a.flushIfPending p).Outgoing := by
  unfold Application.flushIfPending
  split
  · exact h.flushOfflineEvents p
  · exact h

theorem Outgoing.publishDirect {a : Application} (h : a.Outgoing) {event : Event}
    (hpub : shouldPublish event = true) : (a.publishDirect p event).1.Outgoing := by
  rcases publishDirect_cases p a event with he | he | he | ⟨_, _, he⟩ <;> rw [he]
  · exact h
  · exact h.called
  · exact h.called.called
  · exact h.called.called.called.observe hpub

theorem Outgoing.bufferEvent {a : Application} (h : a.Outgoing) {event : Event}
    (hpub : shouldPublish event = true) : (a.bufferEvent event).Outgoing := by
  unfold Application.bufferEvent
  split
  · exact h.observe hpub
  · refine ⟨?_, ?_⟩
    · intro e he
      rcases mem_push he with hold | rfl
      · exact h.buffered e hold
      · exact hpub
    · intro o ho
      rw [List.mem_append, List.mem_append, List.mem_singleton] at ho
      rcases ho with (hold | herased) | hnew
      · exact h.traced o hold
      · obtain ⟨older, rfl⟩ := supersededObs_obs herased
        exact hpub
      · rw [hnew]
        split <;> exact hpub

theorem Outgoing.publishOrBuffer {a : Application} (h : a.Outgoing) {event : Event}
    (hpub : shouldPublish event = true) : (a.publishOrBuffer p event).Outgoing := by
  have hsent := (h.flushIfPending p).publishDirect p hpub
  unfold Application.publishOrBuffer
  simp only
  split
  · exact hsent
  · exact hsent.bufferEvent hpub

theorem Outgoing.processEvent {a : Application} (h : a.Outgoing) (event : Event) :
    (a.processEvent p event).Outgoing := by
  have hcon : (a.onConnected p event).Outgoing := by
    unfold onConnected
    split
    · exact h.flushOfflineEvents p
    · exact h
  have happlied : ((a.onConnected p event).applied event).Outgoing := ⟨hcon.buffered, hcon.traced⟩
  cases hpub : shouldPublish event with
  | false =>
    rw [processEvent_local hpub]
    exact happlied
  | true =>
    rw [processEvent_published hpub]
    have hnumbered : (((a.onConnected p event).applied event).numbered event).Outgoing := by
      have hcounted : ({ (a.onConnected p event).applied event with
          nextSequenceId := (a.onConnected p event).nextSequenceId + 1 } : Application).Outgoing :=
        ⟨happlied.buffered, happlied.traced⟩
      exact hcounted.observe hpub
    exact hnumbered.publishOrBuffer p hpub

theorem Outgoing.process {a : Application} (h : a.Outgoing) (events : List Event) :
    (a.process p events).Outgoing := by
  induction events generalizing a with
  | nil => exact h
  | cons event events ih => exact ih (h.processEvent p event)

end Network

/-! ## Numbering -/

/-- The k-th of these events under the number k, counted from the given one. -/
def numberedFrom (k : Nat) (events : List Event) : List Event :=
  (events.zipIdx k).map fun x => { x.1 with sequenceId := UInt32.ofNat x.2 }

theorem foldl_step_issued (l : LocalPart) (k : Nat) (hk : l.nextSequenceId = UInt32.ofNat k)
    (events : List Event) :
    (events.foldl LocalPart.step l).issued =
        l.issued ++ numberedFrom k (events.filter shouldPublish) ∧
      (events.foldl LocalPart.step l).nextSequenceId =
        UInt32.ofNat (k + (events.filter shouldPublish).length) := by
  induction events generalizing l k with
  | nil => exact ⟨by simp [numberedFrom], hk⟩
  | cons event events ih =>
    rw [List.foldl_cons]
    cases hpub : shouldPublish event with
    | false =>
      have hstep := ih (l.step event) k (by simpa [LocalPart.step, hpub] using hk)
      rw [List.filter_cons_of_neg (by simp [hpub])]
      simpa [LocalPart.step, hpub] using hstep
    | true =>
      have hnext : (l.step event).nextSequenceId = UInt32.ofNat (k + 1) := by
        rw [UInt32.ofNat_add, ← hk]
        simp [LocalPart.step, hpub]
      obtain ⟨hissued, hid⟩ := ih (l.step event) (k + 1) hnext
      rw [List.filter_cons_of_pos hpub]
      constructor
      · rw [hissued]
        simp [LocalPart.step, hpub, hk, numberedFrom, List.zipIdx_cons]
      · rw [hid, List.length_cons]
        congr 1
        omega

end Application

open Application in
/-- Two stations with the same LED and different networks, stores and
backlogs of publishable events agree, after any sequence of events, on the
logical state, the LED and its level, the counter, and the number each event
got: k for the k-th event that is to be published, modulo 2^32. Nothing else
was ever handed to MQTT or to the store. -/
theorem network_independent (p p' : Platform) (store store' : OfflineEventStore) (led : LedDriver)
    (hstore : ∀ event ∈ store.events, shouldPublish event = true)
    (hstore' : ∀ event ∈ store'.events, shouldPublish event = true) (events : List Event) :
    let a := (boot store led).process p events
    let a' := (boot store' led).process p' events
    a.stateManager = a'.stateManager ∧ a.statusLed.state = a'.statusLed.state ∧
      a.statusLed.level = a'.statusLed.level ∧ a.nextSequenceId = a'.nextSequenceId ∧
      a.issued = (((events.filter shouldPublish).zipIdx 1).map fun x =>
        { x.1 with sequenceId := UInt32.ofNat x.2 }) ∧
      a'.issued = a.issued ∧
      (∀ o ∈ a.trace ++ a'.trace, shouldPublish o.subject = true) ∧
      ∀ event ∈ a.offlineStore.events ++ a'.offlineStore.events, shouldPublish event = true := by
  intro a a'
  have hlocal : a.localPart = events.foldl LocalPart.step (boot store led).localPart :=
    process_localPart p (boot store led) events
  have hlocal' : a'.localPart = events.foldl LocalPart.step (boot store led).localPart :=
    process_localPart p' (boot store' led) events
  have hsame : a.localPart = a'.localPart := hlocal.trans hlocal'.symm
  have hled : a.statusLed = a'.statusLed := congrArg LocalPart.statusLed hsame
  have hissued : a.issued = numberedFrom 1 (events.filter shouldPublish) := by
    have h := (foldl_step_issued (boot store led).localPart 1 rfl events).1
    rw [← hlocal] at h
    exact h
  have hout : a.Outgoing := Outgoing.process p ⟨hstore, by simp [boot]⟩ events
  have hout' : a'.Outgoing := Outgoing.process p' ⟨hstore', by simp [boot]⟩ events
  refine ⟨congrArg LocalPart.stateManager hsame, congrArg LedDriver.state hled,
    congrArg LedDriver.level hled, congrArg LocalPart.nextSequenceId hsame, hissued,
    (congrArg LocalPart.issued hsame).symm, ?_, ?_⟩
  · intro o ho
    rcases List.mem_append.mp ho with h | h
    · exact hout.traced o h
    · exact hout'.traced o h
  · intro event hevent
    rcases List.mem_append.mp hevent with h | h
    · exact hout.buffered event h
    · exact hout'.buffered event h

/-- One station is offline with an empty store of one place, the other online
with a press still buffered. -/
theorem network_independent_outage :
    ((Application.boot (OfflineEventStore.create 1)).process Platform.offline
        [pressedButton, { type := .setOutput, value := 1 }]).statusLed.level =
      ((Application.boot { OfflineEventStore.create 4 with events := [pressedButton] }).process
        Platform.online [pressedButton, { type := .setOutput, value := 1 }]).statusLed.level :=
  (network_independent Platform.offline Platform.online (OfflineEventStore.create 1)
    { OfflineEventStore.create 4 with events := [pressedButton] } {} (by decide) (by decide)
    [pressedButton, { type := .setOutput, value := 1 }]).2.2.1

end KaizenStation.Firmware
