/-
KaizenStation.Firmware.RetryTheorems — without coalescing, the central task
is a retry buffer.

`Application.buffer` forgets the numbering and the local state. While the
connection stays as it is and every event can be serialized (`Steady`), the
flush and `publishOrBuffer` are those of `RetryBuffer`, provided that MQTT
gave the buffer's answers and that no push erased an older event (`Follows`).
Both can only fail for good, so the end of a run speaks for all of it.
-/
import KaizenStation.Foundation.RetryBuffer
import KaizenStation.Firmware.RecoveryTheorems

namespace KaizenStation.Firmware

open KaizenStation.Foundation

/-- The connection is as it is and every event has a payload. -/
structure Platform.Steady (p : Platform) (connected : Bool) : Prop where
  connected : ∀ k, (p.env k).connected = connected
  allocated : ∀ k, (p.env k).allocated = true
  printed : ∀ event, (p.text event).isEmpty = false

/-- The room in a store. Without its mutex it takes nothing. -/
def room (capacity : Nat) (mutex : Bool) : Nat := if mutex then capacity else 0

namespace Application

def buffer (a : Application) : RetryBuffer Event where
  pending := a.offlineStore.events
  attempts := a.attempts
  dropped := a.losses.map (·.1)

/-- The attempts were answered like this, and nothing was superseded. -/
structure Follows (answers : Nat → Bool) (a : Application) : Prop where
  answered : ∀ n x, a.attempts[n]? = some x → x.2 = answers n
  uncoalesced : ∀ older newer, (older, Loss.superseded newer) ∉ a.losses

section Retry

variable {p : Platform} {connected : Bool} {answers : Nat → Bool} {capacity : Nat} {mutex : Bool}

/-- What holds of the past held in it. -/
theorem Follows.before {a a' : Application} {hand hand' : List Event}
    (h : Follows answers a') (hsteps : Outbox.Steps (outboxPolicy capacity mutex)
      (a.outbox hand) (a'.outbox hand')) : Follows answers a := by
  have hattempts : a.attempts <+: a'.attempts := hsteps.attempts_grow
  have hlost : ∀ l ∈ a.losses, l ∈ a'.losses := hsteps.lost_mono
  refine ⟨fun n x hx => h.answered n x ?_, fun older newer hloss => ?_⟩
  · rw [List.prefix_iff_getElem?] at hattempts
    obtain ⟨hn, rfl⟩ := List.getElem?_eq_some_iff.mp hx
    exact hattempts n hn
  · exact h.uncoalesced older newer (hlost _ hloss)

/-- The answer to the attempt that was made last. -/
theorem Follows.last {a : Application} {before : List (Event × Bool)} {event : Event}
    {accepted : Bool} (h : Follows answers a) (hlast : a.attempts = before ++ [(event, accepted)]) :
    accepted = answers before.length :=
  h.answered before.length (event, accepted) (by rw [hlast]; simp)

/-! ## Flushing -/

theorem buffer_publish (a : Application) (event : Event) (payload : String) (accepted : Bool) :
    (a.observe (.publish event payload accepted)).buffer =
      { a.buffer with attempts := a.attempts ++ [(event, accepted)] } := by
  have hattempts := attempts_observe a (.publish event payload accepted)
  have hlosses := losses_observe a (.publish event payload accepted)
  simp only [buffer, hattempts, hlosses, Obs.attempt?, Obs.lost?, Option.toList, List.append_nil]
  rfl

/-- An iteration offers the head, and goes on if it was accepted. -/
theorem flushOne_offers (hs : p.Steady connected) (a : Application) (event : Event) :
    ∃ accepted, (a.flushOne p event).2 = accepted ∧ (a.flushOne p event).1.buffer =
      { a.buffer with
        pending := if accepted then a.popHead.offlineStore.events else a.offlineStore.events
        attempts := a.attempts ++ [(event, accepted)] } := by
  have hbuffer := buffer_publish a.called.called event (a.payloadOf p event)
  rcases flushOne_cases p a event with ⟨hp, -⟩ | ⟨-, -, he⟩ | ⟨-, -, he⟩
  · rw [payloadOf_allocated (hs.allocated _), hs.printed] at hp
    cases hp
  · refine ⟨false, by rw [he], ?_⟩
    rw [he]
    exact hbuffer false
  · refine ⟨true, by rw [he], ?_⟩
    rw [he]
    exact congrArg
      (fun b : RetryBuffer Event => { b with pending := a.popHead.offlineStore.events })
      (hbuffer true)

theorem flushLoop_buffer (hs : p.Steady connected) {a : Application}
    (hr : Ready p capacity mutex a) (hf : Follows answers (a.flushLoop p)) :
    (a.flushLoop p).buffer = a.buffer.flush answers := by
  fun_induction flushLoop p a with
  | case1 a h =>
    have hpending : a.buffer.pending = [] := events_nil_of_peek hr.unlocked h
    rw [RetryBuffer.flush_nil hpending]
  | case2 a event h hgo ih =>
    have hready := (flushOne_advances hr h []).ready
    have hone := hf.before (flushLoop_advances hready []).steps
    obtain ⟨accepted, haccepted, hbuffer⟩ := flushOne_offers hs a event
    obtain rfl : accepted = true := haccepted.symm.trans hgo
    have hanswer := (hone.last (congrArg RetryBuffer.attempts hbuffer)).symm
    have hflush := RetryBuffer.flush_accepted (b := a.buffer) (popHead_events h) hanswer
    rw [ih hready hf, hbuffer, hflush]
    rfl
  | case3 a event h hgo =>
    obtain ⟨accepted, haccepted, hbuffer⟩ := flushOne_offers hs a event
    obtain rfl : accepted = false := haccepted.symm.trans (Bool.eq_false_of_not_eq_true hgo)
    have hanswer := (hf.last (congrArg RetryBuffer.attempts hbuffer)).symm
    rw [RetryBuffer.flush_refused (popHead_events h) hanswer, hbuffer]
    rfl

theorem flushOfflineEvents_buffer (hs : p.Steady connected) {a : Application}
    (hr : Ready p capacity mutex a) (hf : Follows answers (a.flushOfflineEvents p)) :
    (a.flushOfflineEvents p).buffer = if connected then a.buffer.flush answers else a.buffer := by
  unfold flushOfflineEvents isConnected at hf ⊢
  simp only [hs.connected] at hf ⊢
  cases connected with
  | false => rfl
  | true => exact flushLoop_buffer hs (ready_called hr) hf

theorem Ready.empty_eq {a : Application} (hr : Ready p capacity mutex a) :
    a.offlineStore.empty = a.buffer.pending.isEmpty := by
  cases hempty : a.offlineStore.empty with
  | true =>
    have hpending : a.buffer.pending = [] := hr.events_nil hempty
    rw [hpending, List.isEmpty_nil]
  | false =>
    cases hpending : a.buffer.pending.isEmpty with
    | false => rfl
    | true => rw [empty_of_events_nil (List.isEmpty_iff.mp hpending)] at hempty; cases hempty

theorem flushIfPending_buffer (hs : p.Steady connected) {a : Application}
    (hr : Ready p capacity mutex a) (hf : Follows answers (a.flushIfPending p)) :
    (a.flushIfPending p).buffer = if connected then a.buffer.flush answers else a.buffer := by
  unfold flushIfPending at hf ⊢
  cases hempty : a.offlineStore.empty with
  | false =>
    simp only [hempty, Bool.not_false, if_true] at hf ⊢
    exact flushOfflineEvents_buffer hs hr hf
  | true =>
    have hpending : a.buffer.pending = [] := hr.events_nil hempty
    simp only [Bool.not_true, Bool.false_eq_true, if_false, RetryBuffer.flush_nil hpending,
      ite_self]

/-! ## Publishing and buffering -/

/-- The direct attempt offers the event if it can. -/
theorem publishDirect_offers (hs : p.Steady connected) {a : Application}
    (hr : Ready p capacity mutex a) (event : Event) :
    if connected && a.buffer.pending.isEmpty then
      ∃ accepted, (a.publishDirect p event).2 = accepted ∧ (a.publishDirect p event).1.buffer =
        { a.buffer with attempts := a.attempts ++ [(event, accepted)] }
    else (a.publishDirect p event).2 = false ∧ (a.publishDirect p event).1.buffer = a.buffer := by
  have hpayload : (a.called.payloadOf p event).isEmpty = false := by
    rw [payloadOf_allocated (hs.allocated _), hs.printed]
  simp only [payloadOf, serialize] at hpayload
  rw [← hr.empty_eq]
  cases hempty : a.offlineStore.empty with
  | false => simp [publishDirect, hempty]
  | true =>
    cases connected with
    | false =>
      have he : a.publishDirect p event = (a.called, false) := by
        simp [publishDirect, hempty, isConnected, hs.connected]
      rw [he]
      exact ⟨rfl, rfl⟩
    | true =>
      have he : a.publishDirect p event =
          a.called.called.publish p event (a.called.payloadOf p event) := by
        simp [publishDirect, hempty, isConnected, hs.connected, serialize, payloadOf, hpayload]
      rw [he]
      exact ⟨_, rfl, buffer_publish a.called.called.called event _ _⟩

theorem buffer_lost (a : Application) {o : Obs} {event : Event} {loss : Loss Event}
    (hattempt : o.attempt? = none) (hlost : o.lost? = some (event, loss)) :
    (a.observe o).buffer = { a.buffer with dropped := a.buffer.dropped ++ [event] } := by
  have hattempts := attempts_observe a o
  have hlosses := losses_observe a o
  simp only [hattempt, hlost, Option.toList, List.append_nil] at hattempts hlosses
  simp only [buffer, hattempts, hlosses, List.map_append, List.map_cons, List.map_nil]
  rfl

/-- Without losses to a newer event, a push finds no event of its source. -/
theorem Follows.no_older {a : Application} (hr : Ready p capacity mutex a) {event : Event}
    (hm : a.offlineStore.mutex = true) (hf : Follows answers (a.bufferEvent event))
    (hlosses : (a.bufferEvent event).losses =
      a.losses ++ (supersededObs a.offlineStore event).filterMap Obs.lost?) :
    ∀ it ∈ a.offlineStore.events, ¬ SameKey Event.key it event := by
  intro it hit hsame
  refine hf.uncoalesced it event ?_
  rw [hlosses, supersededObs_losses hr.wellFormed hm]
  refine List.mem_append_right _ (List.mem_map.mpr ⟨it, ?_, rfl⟩)
  exact List.mem_filter.mpr ⟨hit, decide_eq_true hsame⟩

/-- The end of `publishOrBuffer` keeps the event if there is room. -/
theorem bufferEvent_buffer {a : Application} (hr : Ready p capacity mutex a) (event : Event)
    (hf : Follows answers (a.bufferEvent event)) :
    (a.bufferEvent event).buffer =
      a.buffer.keep (room capacity mutex) (event.type == .heartbeat) event := by
  have hpending : a.buffer.pending = a.offlineStore.events := rfl
  unfold RetryBuffer.keep
  rw [hpending]
  rcases bufferEvent_cases hr event with ⟨ht, he⟩ | ⟨ht, hm, hroom, hev, he⟩ | ⟨ht, hno, he⟩
  · rw [he, buffer_lost a rfl rfl, ht]
    rfl
  · have hlosses : (a.bufferEvent event).losses =
        a.losses ++ (supersededObs a.offlineStore event).filterMap Obs.lost? := by
      rw [he]
      simp [losses, Obs.lost?]
    have hattempts : (a.bufferEvent event).attempts = a.attempts := by
      rw [he]
      simp [attempts, (supersededObs_silent a.offlineStore event).2, Obs.attempt?]
    have hnone := hf.no_older hr hm hlosses
    have hnothing : (supersededObs a.offlineStore event).filterMap Obs.lost? = [] := by
      rw [supersededObs_losses hr.wellFormed hm, List.map_eq_nil_iff, List.filter_eq_nil_iff]
      exact fun it hit hsame => hnone it hit (of_decide_eq_true hsame)
    rw [cleared_eq_self hnone] at hroom hev
    have hroom' : ¬ room capacity mutex ≤ a.offlineStore.events.length := by
      rw [room, if_pos (hr.lock.symm.trans hm)]
      omega
    rw [hnothing, List.append_nil] at hlosses
    simp only [buffer, hlosses, hattempts]
    rw [he]
    simp [ht, hroom', hev]
  · have hfull : room capacity mutex ≤ a.offlineStore.events.length := by
      unfold room
      split
      · next hm => exact (hno hm).1.ge
      · exact Nat.zero_le _
    rw [he, buffer_lost a rfl rfl]
    simp [hfull, hpending]

/-- The event is offered if it can be, and kept if it was not accepted. -/
theorem settle_buffer (hs : p.Steady connected) {a : Application} (hr : Ready p capacity mutex a)
    (event : Event) (hf : Follows answers (a.settle p event)) :
    (a.settle p event).buffer =
      if connected && a.buffer.pending.isEmpty then
        a.buffer.offer answers (room capacity mutex) (event.type == .heartbeat) event
      else a.buffer.keep (room capacity mutex) (event.type == .heartbeat) event := by
  have hdirect := publishDirect_advances hr event
  have hoffers := publishDirect_offers hs hr event
  unfold settle at hf ⊢
  cases hcan : connected && a.buffer.pending.isEmpty with
  | false =>
    rw [hcan] at hoffers
    obtain ⟨hsent, hbuffer⟩ := hoffers
    simp only [hsent, Bool.false_eq_true, if_false] at hf ⊢
    rw [bufferEvent_buffer hdirect.ready event hf, hbuffer]
  | true =>
    rw [hcan] at hoffers
    obtain ⟨accepted, hsent, hbuffer⟩ := hoffers
    have hattempts : (a.publishDirect p event).1.attempts = a.attempts ++ [(event, accepted)] :=
      congrArg RetryBuffer.attempts hbuffer
    unfold RetryBuffer.offer
    cases accepted with
    | true =>
      simp only [hsent, if_true] at hf ⊢
      have hanswer : answers a.buffer.attempts.length = true := (hf.last hattempts).symm
      rw [hbuffer, hanswer]
      rfl
    | false =>
      simp only [hsent, Bool.false_eq_true, if_false] at hf ⊢
      have hbefore := hf.before (bufferEvent_advances hdirect.ready event).steps
      have hanswer : answers a.buffer.attempts.length = false := (hbefore.last hattempts).symm
      rw [bufferEvent_buffer hdirect.ready event hf, hbuffer, hanswer]
      rfl

theorem publishOrBuffer_buffer (hs : p.Steady connected) {a : Application}
    (hr : Ready p capacity mutex a) (event : Event)
    (hf : Follows answers (a.publishOrBuffer p event)) :
    (a.publishOrBuffer p event).buffer =
      a.buffer.submit answers connected (room capacity mutex) (event.type == .heartbeat)
        event := by
  have hready := (flushIfPending_advances hr [event]).ready
  rw [publishOrBuffer_eq] at hf ⊢
  have hflush := flushIfPending_buffer hs hr (hf.before (settle_advances hready event).steps)
  rw [settle_buffer hs hready event hf, hflush]
  unfold RetryBuffer.submit
  cases connected <;> rfl

/-! ## Processing -/

theorem buffer_applied (a : Application) (event : Event) : (a.applied event).buffer = a.buffer :=
  rfl

theorem buffer_numbered (a : Application) (event : Event) :
    (a.numbered event).buffer = a.buffer := by
  have hattempts := attempts_observe { a with nextSequenceId := a.nextSequenceId + 1 }
    (.assigned { event with sequenceId := a.nextSequenceId } a.calls)
  have hlosses := losses_observe { a with nextSequenceId := a.nextSequenceId + 1 }
    (.assigned { event with sequenceId := a.nextSequenceId } a.calls)
  simp only [Obs.attempt?, Obs.lost?, Option.toList, List.append_nil] at hattempts hlosses
  unfold buffer numbered
  rw [hattempts, hlosses]
  rfl

/-- A published event is submitted with its number. -/
theorem processEvent_submits (hs : p.Steady connected) {a : Application}
    (hr : Ready p capacity mutex a) {event : Event} (hpub : shouldPublish event = true)
    (hf : Follows answers (a.processEvent p event)) :
    (a.processEvent p event).buffer =
      a.buffer.submit answers connected (room capacity mutex) (event.type == .heartbeat)
        { event with sequenceId := a.nextSequenceId } := by
  have hlocal : a.onConnected p event = a := by
    refine if_neg fun h => ?_
    simp [shouldPublish, h] at hpub
  rw [processEvent_published hpub, hlocal] at hf ⊢
  rw [publishOrBuffer_buffer hs (ready_numbered (ready_applied hr event) event) _ hf,
    buffer_numbered, buffer_applied]

/-- The event of a new connection flushes. -/
theorem processEvent_flushes (hs : p.Steady connected) {a : Application}
    (hr : Ready p capacity mutex a) {event : Event} (htype : event.type = .mqttConnected)
    (hf : Follows answers (a.processEvent p event)) :
    (a.processEvent p event).buffer = if connected then a.buffer.flush answers else a.buffer := by
  have hpub : shouldPublish event = false := by simp [shouldPublish, htype]
  have hflush : a.onConnected p event = a.flushOfflineEvents p := if_pos htype
  rw [processEvent_local hpub, hflush] at hf ⊢
  exact flushOfflineEvents_buffer hs hr ⟨hf.answered, hf.uncoalesced⟩

/-- Any other event that is not published leaves the buffer alone. -/
theorem processEvent_silent (p : Platform) (a : Application) {event : Event}
    (hpub : shouldPublish event = false) (htype : event.type ≠ .mqttConnected) :
    (a.processEvent p event).buffer = a.buffer := by
  have hlocal : a.onConnected p event = a := if_neg htype
  rw [processEvent_local hpub, hlocal, buffer_applied]

end Retry

end Application

end KaizenStation.Firmware
