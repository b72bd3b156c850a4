/-
KaizenStation.Firmware.RecoveryTheorems — one good turn of the loop empties
the buffer.

The loop of the central task flushes in three places: on a connection event,
before a publication and after the event it received. Whatever the history
left in the buffer, and whether or not a connection event ever came through,
a single turn during which the network serves every request hands over the
whole backlog in order, then the event received in that turn, then the
heartbeat (`iteration_drains`).
-/
import KaizenStation.Firmware.DeliveryTheorems
import KaizenStation.Firmware.MessageSerializerTheorems
import KaizenStation.Firmware.Station

namespace KaizenStation.Firmware

open KaizenStation.Foundation

/-- The loop of the running station is made of such turns. -/
theorem Station.turn_application (p : Platform) (s : Station) (freeHeap : UInt32) :
    (((s.receive p).flush p).heartbeat p freeHeap).application =
      (s.application.iteration p s.lastHeartbeatMs s.eventQueue.receive.2 s.nowMs freeHeap).1 := by
  have hsame : ((s.receive p).flush p).heartbeatDue = s.heartbeatDue := rfl
  unfold Station.heartbeat Application.iteration
  rw [hsame]
  cases h : s.heartbeatDue with
  | true =>
    have hdue : s.nowMs - s.lastHeartbeatMs ≥ HEARTBEAT_INTERVAL_MS := of_decide_eq_true h
    simp only [if_pos hdue]
    rfl
  | false =>
    have hdue : ¬ s.nowMs - s.lastHeartbeatMs ≥ HEARTBEAT_INTERVAL_MS := of_decide_eq_false h
    simp only [if_neg hdue]
    rfl

/-- Connected, with memory, and accepted. -/
def Answer.Serves (answer : Answer) : Prop :=
  answer.connected = true ∧ answer.allocated = true ∧ answer.accepted = true

namespace Application

section Served

variable {p : Platform}

/-! ## What a served flush does -/

variable (p) in
/-- Every call between the two states was served. -/
def Served (a a' : Application) : Prop := ∀ k, a.calls ≤ k → k < a'.calls → (p.env k).Serves

theorem Served.left {a b c : Application} (h : Served p a c) (hbc : b.calls ≤ c.calls) :
    Served p a b := fun k hk hk' => h k hk (Nat.lt_of_lt_of_le hk' hbc)

theorem Served.right {a b c : Application} (h : Served p a c) (hab : a.calls ≤ b.calls) :
    Served p b c := fun k hk hk' => h k (Nat.le_trans hab hk) hk'

theorem Served.first {a b : Application} (h : Served p a b) (hlt : a.calls < b.calls) :
    (p.env a.calls).Serves := h a.calls (Nat.le_refl _) hlt

/-- Offered these events, in this order, MQTT took each of them, and nothing
is left. -/
structure Delivers (a : Application) (events : List Event) (a' : Application) : Prop where
  drained : a'.offlineStore.events = []
  attempts : a'.attempts = a.attempts ++ events.map (·, true)

/-- A served iteration hands the head over. -/
theorem flushOne_served {a : Application} {event : Event}
    (hs : Served p a (a.flushOne p event).1) (htext : (p.text event).isEmpty = false) :
    a.flushOne p event =
      ((a.called.called.observe (.publish event (p.text event) true)).popHead, true) := by
  have hpayload : a.payloadOf p event = p.text event :=
    payloadOf_allocated (hs.first (flushOne_calls a event)).2.1 event
  rcases flushOne_cases p a event with ⟨hp, _⟩ | ⟨_, ha, he⟩ | ⟨_, _, he⟩
  · rw [hpayload, htext] at hp
    cases hp
  · have hsecond := hs a.called.calls (Nat.le_succ _) (by rw [he]; simp [called, observe])
    rw [hsecond.2.2] at ha
    cases ha
  · rw [he, hpayload]

theorem flushLoop_served {capacity : Nat} {mutex : Bool} {a : Application}
    (hr : Ready p capacity mutex a) (hs : Served p a (a.flushLoop p))
    (htext : ∀ event ∈ a.offlineStore.events, (p.text event).isEmpty = false) :
    Delivers a a.offlineStore.events (a.flushLoop p) := by
  fun_induction flushLoop p a with
  | case1 a h =>
    have hnil := events_nil_of_peek hr.unlocked h
    exact ⟨hnil, by rw [hnil]; simp⟩
  | case2 a event h hgo ih =>
    have hevents := popHead_events h
    have hone := flushOne_served (hs.left (flushLoop_calls _)) (htext event (by rw [hevents]; simp))
    have hrest : (a.flushOne p event).1.offlineStore.events = a.popHead.offlineStore.events := by
      rw [hone]
      rfl
    have hmem : ∀ e ∈ (a.flushOne p event).1.offlineStore.events,
        (p.text e).isEmpty = false := by
      intro e he
      rw [hrest] at he
      exact htext e (by rw [hevents]; exact List.mem_cons_of_mem _ he)
    have hnext := ih (flushOne_advances hr h []).ready
      (hs.right (Nat.le_of_lt (flushOne_calls a event))) hmem
    have hattempts : (a.flushOne p event).1.attempts = a.attempts ++ [(event, true)] := by
      rw [hone]
      exact attempts_observe a.called.called _
    refine ⟨hnext.drained, ?_⟩
    rw [hnext.attempts, hattempts, hrest, hevents]
    simp
  | case3 a event h hgo =>
    have hevents := popHead_events h
    rw [flushOne_served hs (htext event (by rw [hevents]; simp))] at hgo
    exact absurd rfl hgo

theorem flushOfflineEvents_served {capacity : Nat} {mutex : Bool} {a : Application}
    (hr : Ready p capacity mutex a) (hs : Served p a (a.flushOfflineEvents p))
    (htext : ∀ event ∈ a.offlineStore.events, (p.text event).isEmpty = false) :
    Delivers a a.offlineStore.events (a.flushOfflineEvents p) := by
  have hfirst := hs.first (flushOfflineEvents_calls a)
  have he : a.flushOfflineEvents p = a.called.flushLoop p := by
    simp [flushOfflineEvents, isConnected, hfirst.1]
  rw [he] at hs ⊢
  obtain ⟨hdrained, hattempts⟩ :=
    flushLoop_served (ready_called hr) (hs.right (Nat.le_succ _)) htext
  exact ⟨hdrained, hattempts⟩

theorem flushIfPending_served {capacity : Nat} {mutex : Bool} {a : Application}
    (hr : Ready p capacity mutex a) (hs : Served p a (a.flushIfPending p))
    (htext : ∀ event ∈ a.offlineStore.events, (p.text event).isEmpty = false) :
    Delivers a a.offlineStore.events (a.flushIfPending p) := by
  cases hempty : a.offlineStore.empty with
  | true =>
    have hnil := hr.events_nil hempty
    have he : a.flushIfPending p = a := by simp [flushIfPending, hempty]
    rw [he, hnil]
    exact ⟨hnil, by simp⟩
  | false =>
    have he : a.flushIfPending p = a.flushOfflineEvents p := by simp [flushIfPending, hempty]
    rw [he] at hs ⊢
    exact flushOfflineEvents_served hr hs htext

/-! ## What a served publication does -/

/-- An empty store says so. -/
theorem empty_of_events_nil {s : OfflineEventStore} (h : s.events = []) : s.empty = true := by
  unfold OfflineEventStore.empty
  rw [h]
  cases s.lock <;> rfl

theorem publishDirect_served {a : Application} {event : Event} (hnil : a.offlineStore.events = [])
    (hs : Served p a (a.publishDirect p event).1) (htext : (p.text event).isEmpty = false) :
    Delivers a [event] (a.publishDirect p event).1 ∧ (a.publishDirect p event).2 = true := by
  have hempty := empty_of_events_nil hnil
  cases hcon : (p.env a.calls).connected with
  | false =>
    have he : a.publishDirect p event = (a.called, false) := by
      simp [publishDirect, hempty, isConnected, hcon]
    rw [he] at hs
    have hfirst := hs.first (Nat.lt_succ_self _)
    rw [hfirst.1] at hcon
    cases hcon
  | true =>
    cases hp : (a.called.payloadOf p event).isEmpty with
    | true =>
      have he : a.publishDirect p event = (a.called.called, false) := by
        simp only [payloadOf, serialize] at hp
        simp [publishDirect, hempty, isConnected, hcon, serialize, hp]
      rw [he] at hs
      have hsecond := hs a.called.calls (Nat.le_succ _) (Nat.lt_succ_self _)
      rw [payloadOf_allocated hsecond.2.1, htext] at hp
      cases hp
    | false =>
      have he : a.publishDirect p event =
          a.called.called.publish p event (a.called.payloadOf p event) := by
        simp only [payloadOf, serialize] at hp
        simp [publishDirect, hempty, isConnected, hcon, serialize, payloadOf, hp]
      rw [he] at hs ⊢
      have hthird := hs a.called.called.calls
        (Nat.le_trans (Nat.le_succ _) (Nat.le_succ _)) (Nat.lt_succ_self _)
      unfold publish
      rw [hthird.2.2]
      exact ⟨⟨hnil, attempts_observe a.called.called.called _⟩, rfl⟩

/-- A served publication hands over the backlog and then the event. -/
theorem publishOrBuffer_served {capacity : Nat} {mutex : Bool} {a : Application} {event : Event}
    (hr : Ready p capacity mutex a) (hs : Served p a (a.publishOrBuffer p event))
    (htext : ∀ e ∈ a.offlineStore.events ++ [event], (p.text e).isEmpty = false) :
    Delivers a (a.offlineStore.events ++ [event]) (a.publishOrBuffer p event) := by
  have hdone := hs.left (publishOrBuffer_calls (p := p) a event).2
  have hflush := flushIfPending_served hr (hdone.left (publishDirect_calls _ event))
    fun e he => htext e (List.mem_append_left _ he)
  obtain ⟨hdirect, hsent⟩ := publishDirect_served hflush.drained
    (hdone.right (flushIfPending_calls a)) (htext event (by simp))
  have he : a.publishOrBuffer p event = ((a.flushIfPending p).publishDirect p event).1 := by
    simp [publishOrBuffer, hsent]
  rw [he]
  refine ⟨hdirect.drained, ?_⟩
  rw [hdirect.attempts, hflush.attempts]
  simp

/-! ## A served turn -/

/-- The event that `processEvent` hands on, with its number. -/
def outgoing (a : Application) (event : Event) : List Event :=
  if shouldPublish event then [{ event with sequenceId := a.nextSequenceId }] else []

/-- What is on offer when `processEvent` meets an event that makes it flush;
a command or another connection event leaves the backlog alone. -/
theorem processEvent_served {capacity : Nat} {mutex : Bool} {a : Application} {event : Event}
    (hr : Ready p capacity mutex a) (hs : Served p a (a.processEvent p event))
    (htext : ∀ e ∈ a.offlineStore.events ++ a.outgoing event, (p.text e).isEmpty = false) :
    Delivers a (a.offlineStore.events ++ a.outgoing event) (a.processEvent p event) ∨
      (a.outgoing event = [] ∧ (a.processEvent p event).attempts = a.attempts ∧
        (a.processEvent p event).offlineStore = a.offlineStore) := by
  have hcon := onConnected_advances hr event []
  cases hpub : shouldPublish event with
  | false =>
    have hout : a.outgoing event = [] := by simp [outgoing, hpub]
    rw [processEvent_local hpub] at hs ⊢
    by_cases hm : event.type = .mqttConnected
    · have he : a.onConnected p event = a.flushOfflineEvents p := if_pos hm
      rw [he] at hs ⊢
      rw [hout, List.append_nil] at htext ⊢
      obtain ⟨hdrained, hattempts⟩ := flushOfflineEvents_served hr hs htext
      exact .inl ⟨hdrained, hattempts⟩
    · have he : a.onConnected p event = a := if_neg hm
      rw [he]
      exact .inr ⟨hout, rfl, rfl⟩
  | true =>
    have hm : event.type ≠ .mqttConnected := by
      intro h
      simp [shouldPublish, h] at hpub
    have he : a.onConnected p event = a := if_neg hm
    have hout : a.outgoing event = [{ event with sequenceId := a.nextSequenceId }] := by
      simp [outgoing, hpub]
    rw [processEvent_published hpub, he] at hs ⊢
    rw [hout] at htext ⊢
    obtain ⟨hdrained, hattempts⟩ := publishOrBuffer_served
      (ready_numbered (ready_applied hr event) event) hs htext
    have hsame : ((a.applied event).numbered event).attempts = a.attempts :=
      (attempts_observe _ _).trans (List.append_nil _)
    refine .inl ⟨hdrained, hattempts.trans ?_⟩
    rw [hsame]
    rfl

/-- What the event received in a turn makes the station hand on. -/
def sent (a : Application) (received : Option Event) : List Event :=
  received.toList.flatMap a.outgoing

/-- The heartbeat of a turn, if it is due, under the number after `sent`. -/
def beat (a : Application) (lastHeartbeatMs : UInt64) (received : Option Event) (now : UInt64)
    (freeHeap : UInt32) : List Event :=
  if now - lastHeartbeatMs ≥ HEARTBEAT_INTERVAL_MS then
    [{ heartbeat now freeHeap with
      sequenceId := a.nextSequenceId + UInt32.ofNat (a.sent received).length }]
  else []

/-- The first half of a turn: receive, process, flush what is pending. -/
def received (p : Platform) (a : Application) (event? : Option Event) : Application :=
  (match event? with
    | some event => a.processEvent p event
    | none => a).flushIfPending p

theorem iteration_eq (a : Application) (lastHeartbeatMs : UInt64) (event? : Option Event)
    (now : UInt64) (freeHeap : UInt32) :
    (a.iteration p lastHeartbeatMs event? now freeHeap).1 =
      if now - lastHeartbeatMs ≥ HEARTBEAT_INTERVAL_MS then
        (a.received p event?).processEvent p (heartbeat now freeHeap)
      else a.received p event? := by
  unfold iteration received
  simp only
  split <;> rfl

theorem received_calls (a : Application) (event? : Option Event) :
    a.calls ≤ (a.received p event?).calls := by
  cases event? with
  | none => exact flushIfPending_calls a
  | some event => exact Nat.le_trans (processEvent_calls a event) (flushIfPending_calls _)

theorem received_ready {capacity : Nat} {mutex : Bool} {a : Application}
    (hr : Ready p capacity mutex a) (event? : Option Event) :
    Ready p capacity mutex (a.received p event?) ∧
      (a.received p event?).nextSequenceId =
        a.nextSequenceId + UInt32.ofNat (a.sent event?).length := by
  cases event? with
  | none =>
    have h := flushIfPending_advances hr []
    exact ⟨h.ready, h.untouched.nextSequenceId.trans (by simp [sent])⟩
  | some event =>
    have h := processEvent_processed hr event
    have h' := flushIfPending_advances h.ready []
    refine ⟨h'.ready, h'.untouched.nextSequenceId.trans (h.nextSequenceId.trans ?_)⟩
    cases hpub : shouldPublish event <;> simp [sent, outgoing, hpub]

/-- The first half of a served turn drains the buffer, whichever of its two
flushes does it. -/
theorem received_served {capacity : Nat} {mutex : Bool} {a : Application}
    (hr : Ready p capacity mutex a) {event? : Option Event}
    (hs : Served p a (a.received p event?))
    (htext : ∀ e ∈ a.offlineStore.events ++ a.sent event?, (p.text e).isEmpty = false) :
    Delivers a (a.offlineStore.events ++ a.sent event?) (a.received p event?) := by
  cases event? with
  | none =>
    rw [show a.sent none = [] from rfl, List.append_nil] at htext ⊢
    exact flushIfPending_served hr hs htext
  | some event =>
    have hsent : a.sent (some event) = a.outgoing event := by simp [sent]
    rw [hsent] at htext ⊢
    have hp := processEvent_processed hr event
    have hs' : Served p a ((a.processEvent p event).flushIfPending p) := hs
    show Delivers a _ ((a.processEvent p event).flushIfPending p)
    rcases processEvent_served hr (hs'.left (flushIfPending_calls _)) htext with
      ⟨hdrained, hattempts⟩ | ⟨hout, hattempts, hstore⟩
    · -- nothing is pending any more
      have hempty := empty_of_events_nil hdrained
      have he : (a.processEvent p event).flushIfPending p = a.processEvent p event := by
        simp [flushIfPending, hempty]
      rw [he]
      exact ⟨hdrained, hattempts⟩
    · -- the event left the backlog to the flush that follows
      have hflush := flushIfPending_served hp.ready (hs'.right (processEvent_calls a event))
        fun e he => htext e (by rw [hstore] at he; exact List.mem_append_left _ he)
      refine ⟨hflush.drained, ?_⟩
      rw [hflush.attempts, hattempts, hstore, hout, List.append_nil]

theorem iteration_served {capacity : Nat} {mutex : Bool} {a : Application}
    (hr : Ready p capacity mutex a) {lastHeartbeatMs : UInt64} {event? : Option Event}
    {now : UInt64} {freeHeap : UInt32}
    (hs : Served p a (a.iteration p lastHeartbeatMs event? now freeHeap).1)
    (htext : ∀ e ∈ a.offlineStore.events ++ a.sent event? ++
      a.beat lastHeartbeatMs event? now freeHeap, (p.text e).isEmpty = false) :
    Delivers a (a.offlineStore.events ++ a.sent event? ++
      a.beat lastHeartbeatMs event? now freeHeap)
      (a.iteration p lastHeartbeatMs event? now freeHeap).1 := by
  obtain ⟨hready, hnext⟩ := received_ready (p := p) hr event?
  have hmono := received_calls (p := p) a event?
  rw [iteration_eq] at hs ⊢
  by_cases hdue : now - lastHeartbeatMs ≥ HEARTBEAT_INTERVAL_MS
  · rw [if_pos hdue] at hs ⊢
    have hbeat : a.beat lastHeartbeatMs event? now freeHeap =
        (a.received p event?).outgoing (heartbeat now freeHeap) := by
      simp [beat, hdue, outgoing, shouldPublish, heartbeat, hnext]
    obtain ⟨hfirst, hbacklog⟩ := received_served hr (hs.left (processEvent_calls _ _))
      fun e h => htext e (List.mem_append_left _ h)
    have htext' : ∀ e ∈ (a.received p event?).offlineStore.events ++
        (a.received p event?).outgoing (heartbeat now freeHeap), (p.text e).isEmpty = false := by
      intro e h
      rw [hfirst, List.nil_append, ← hbeat] at h
      exact htext e (List.mem_append_right _ h)
    rcases processEvent_served hready (hs.right hmono) htext' with
      ⟨hdrained, hattempts⟩ | ⟨hnone, -, -⟩
    · refine ⟨hdrained, ?_⟩
      rw [hattempts, hfirst, List.nil_append, ← hbeat, hbacklog, List.append_assoc,
        ← List.map_append]
    · cases hnone
  · rw [if_neg hdue] at hs ⊢
    have hbeat : a.beat lastHeartbeatMs event? now freeHeap = [] := by simp [beat, hdue]
    rw [hbeat, List.append_nil] at htext ⊢
    exact received_served hr hs htext

end Served

/-- From every reachable state, one turn of the loop that is served
throughout hands over the backlog in order, then the event it received, then
its heartbeat, each once, and leaves the buffer empty. -/
theorem iteration_drains (p : Platform) (capacity : Nat) (mutex : Bool) (led : LedDriver)
    (calls : List Call) (lastHeartbeatMs : UInt64) (event? : Option Event) (now : UInt64)
    (freeHeap : UInt32) :
    let a := (boot (OfflineEventStore.create capacity mutex) led).run p calls
    let a' := (a.iteration p lastHeartbeatMs event? now freeHeap).1
    let events := a.offlineStore.events ++ a.sent event? ++
      a.beat lastHeartbeatMs event? now freeHeap
    (∀ k, a.calls ≤ k → k < a'.calls → (p.env k).Serves) →
    (∀ event ∈ events, (p.text event).isEmpty = false) →
      a'.offlineStore.empty = true ∧ a'.offlineStore.events = [] ∧
      a'.attempts = a.attempts ++ events.map (·, true) ∧ a'.accepted = a.accepted ++ events := by
  intro a a' events hserved htext
  have hr : Ready p capacity mutex a := (run_ready (boot_ready p capacity mutex led) calls).1
  obtain ⟨hdrained, hattempts⟩ : Delivers a events a' := iteration_served hr hserved htext
  refine ⟨empty_of_events_nil hdrained, hdrained, hattempts, ?_⟩
  rw [accepted, hattempts, List.filter_append, List.map_append]
  congr 1
  simp [List.filter_map, Function.comp_def]

/-- A press is buffered during an outage; in the next turn the network is
there again, and nothing is received. -/
def outageThenBack : Platform where
  config := defaultConfig
  cjson := CJson.reference
  env := fun k => if k = 0 then { connected := false, allocated := true, accepted := false }
    else { connected := true, allocated := true, accepted := true }

theorem iteration_drains_recovering :
    (((boot (OfflineEventStore.create 64)).run outageThenBack
      [.processEvent pressedButton]).iteration outageThenBack 0 none 1000 0).1.offlineStore.empty =
        true := by
  refine (iteration_drains outageThenBack 64 true {} [.processEvent pressedButton] 0 none 1000 0
    ?_ ?_).1
  · intro k hk _
    have hcalls : ((boot (OfflineEventStore.create 64 true) {}).run outageThenBack
      [.processEvent pressedButton]).calls = 1 := by decide +kernel
    have hk' : k ≠ 0 := by omega
    simp [outageThenBack, hk', Answer.Serves]
  · decide +kernel

end Application

end KaizenStation.Firmware
