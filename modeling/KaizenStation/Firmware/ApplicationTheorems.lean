/-
KaizenStation.Firmware.ApplicationTheorems — the central task is an ordered
outbox.

`Application.outbox` reads an application as the outbox of the foundation:
what was numbered is issued, the offline store is the backlog, and the event
that `publishOrBuffer` is busy with is in hand. `Advances` says that a part
of the program made moves of that protocol, kept what every reachable
application has (`Ready`), and left the rest of the state alone. There is one
such lemma for each function of the source, from the loop body of the flush
up to a whole run.

The order of the accepted events (`run_keeps_order`) and the fate of every
number (`run_accounts`) are then facts about the outbox.
-/
import KaizenStation.Foundation.Outbox
import KaizenStation.Firmware.OfflineEventStoreTheorems
import KaizenStation.Firmware.Application

namespace KaizenStation.Firmware

open KaizenStation.Foundation

/-- The loss an observation records. -/
def Obs.lost? : Obs → Option (Event × Loss Event)
  | .unserializable event _ => some (event, .dropped)
  | .superseded older newer => some (older, .superseded newer)
  | .bufferFull event held => some (event, .rejected held)
  | .heartbeatDiscarded event _ _ => some (event, .discarded)
  | _ => none

/-- The text of an event for which cJSON has memory. -/
def Platform.text (p : Platform) (event : Event) : String :=
  MessageSerializer.serializeEvent p.cjson true event (some p.config.deviceId)
    (some p.config.firmwareVersion)

/-- What `serializeEvent` answers at the call `k`. -/
def Platform.payload (p : Platform) (k : Nat) (event : Event) : String :=
  MessageSerializer.serializeEvent p.cjson (p.env k).allocated event (some p.config.deviceId)
    (some p.config.firmwareVersion)

/-- What an observation says of the platform's answers: a published payload
is the text of its event, and the call that serialized a dropped event met an
allocation failure or a printer that answers the empty text. -/
def Obs.Honest (p : Platform) : Obs → Prop
  | .publish event payload _ =>
    payload = MessageSerializer.serializeEvent p.cjson true event
      (some p.config.deviceId) (some p.config.firmwareVersion) ∧ payload.isEmpty = false
  | .unserializable event call => (p.payload call event).isEmpty = true
  | _ => True

/-- The outbox an application is, with its store's bound and mutex. -/
def outboxPolicy (capacity : Nat) (mutex : Bool) : Policy Event UInt32 where
  key := Event.key
  volatile := fun event => event.type = .heartbeat
  capacity := capacity
  available := mutex

namespace Application

/-- The events lost so far, each with the reason. -/
def losses (a : Application) : List (Event × Loss Event) := a.trace.filterMap Obs.lost?

def outbox (a : Application) (hand : List Event) : Outbox Event where
  issued := a.issued
  attempts := a.attempts
  pending := a.offlineStore.events
  hand := hand
  lost := a.losses

/-! ### What an observation adds -/

theorem filterMap_append_singleton {α β : Type} (f : α → Option β) (l : List α) (o : α) :
    (l ++ [o]).filterMap f = l.filterMap f ++ (f o).toList := by
  rw [List.filterMap_append, List.filterMap_cons]
  cases f o <;> rfl

theorem issued_observe (a : Application) (o : Obs) :
    (a.observe o).issued = a.issued ++ o.assigned?.toList :=
  filterMap_append_singleton _ _ _

theorem attempts_observe (a : Application) (o : Obs) :
    (a.observe o).attempts = a.attempts ++ o.attempt?.toList :=
  filterMap_append_singleton _ _ _

theorem losses_observe (a : Application) (o : Obs) :
    (a.observe o).losses = a.losses ++ o.lost?.toList :=
  filterMap_append_singleton _ _ _

theorem outbox_observe (a : Application) (o : Obs) (hand : List Event) :
    (a.observe o).outbox hand =
      { issued := a.issued ++ o.assigned?.toList
        attempts := a.attempts ++ o.attempt?.toList
        pending := a.offlineStore.events
        hand := hand
        lost := a.losses ++ o.lost?.toList } := by
  rw [outbox, issued_observe, attempts_observe, losses_observe]
  rfl

theorem outbox_popHead (a : Application) (hand : List Event) :
    a.popHead.outbox hand = { a.outbox hand with pending := a.popHead.offlineStore.events } := rfl

/-! ## What every reachable application has -/

structure Ready (p : Platform) (capacity : Nat) (mutex : Bool) (a : Application) : Prop where
  bound : a.offlineStore.capacity = capacity
  lock : a.offlineStore.mutex = mutex
  wellFormed : a.offlineStore.WellFormed
  idle : mutex = false → a.offlineStore.events = []
  honest : ∀ o ∈ a.trace, o.Honest p

/-- Local state, the counter and the numbered events are as before. -/
structure Untouched (a a' : Application) : Prop where
  stateManager : a'.stateManager = a.stateManager
  statusLed : a'.statusLed = a.statusLed
  nextSequenceId : a'.nextSequenceId = a.nextSequenceId
  issued : a'.issued = a.issued

theorem Untouched.refl (a : Application) : Untouched a a := ⟨rfl, rfl, rfl, rfl⟩

theorem Untouched.trans {a b c : Application} (h : Untouched a b) (h' : Untouched b c) :
    Untouched a c :=
  ⟨h'.stateManager.trans h.stateManager, h'.statusLed.trans h.statusLed,
    h'.nextSequenceId.trans h.nextSequenceId, h'.issued.trans h.issued⟩

section Advances

variable (p : Platform) (capacity : Nat) (mutex : Bool)

/-- From `a` with `hand` in hand to `a'` with `hand'`: outbox moves and
nothing else. -/
structure Advances (a : Application) (hand : List Event) (a' : Application) (hand' : List Event) :
    Prop where
  ready : Ready p capacity mutex a'
  steps : Outbox.Steps (outboxPolicy capacity mutex) (a.outbox hand) (a'.outbox hand')
  untouched : Untouched a a'

variable {p capacity mutex}

theorem Advances.refl {a : Application} (hr : Ready p capacity mutex a) (hand : List Event) :
    Advances p capacity mutex a hand a hand :=
  ⟨hr, Relation.ReflTransGen.refl, Untouched.refl a⟩

theorem Advances.trans {a b c : Application} {hand hand' hand'' : List Event}
    (h : Advances p capacity mutex a hand b hand')
    (h' : Advances p capacity mutex b hand' c hand'') :
    Advances p capacity mutex a hand c hand'' :=
  ⟨h'.ready, h.steps.trans h'.steps, h.untouched.trans h'.untouched⟩

/-- A call that was only answered. -/
theorem advances_called {a : Application} (hr : Ready p capacity mutex a) (hand : List Event) :
    Advances p capacity mutex a hand a.called hand :=
  ⟨⟨hr.bound, hr.lock, hr.wellFormed, hr.idle, hr.honest⟩, Relation.ReflTransGen.refl,
    ⟨rfl, rfl, rfl, rfl⟩⟩

/-! ## Flushing -/

theorem honest_observe {a : Application} {o : Obs} (hr : ∀ o ∈ a.trace, o.Honest p)
    (ho : o.Honest p) : ∀ o' ∈ (a.observe o).trace, o'.Honest p := by
  intro o' ho'
  rcases List.mem_append.mp ho' with h | h
  · exact hr o' h
  · rw [List.mem_singleton.mp h]; exact ho

/-- A payload that is not empty was allocated, so it is the event's text. -/
theorem serializeEvent_allocated {cjson : CJson} {allocated : Bool} {event : Event}
    {deviceId firmwareVersion : Option CString}
    (h : (MessageSerializer.serializeEvent cjson allocated event deviceId
      firmwareVersion).isEmpty = false) :
    MessageSerializer.serializeEvent cjson allocated event deviceId firmwareVersion =
      MessageSerializer.serializeEvent cjson true event deviceId firmwareVersion := by
  cases allocated with
  | true => rfl
  | false => simp [MessageSerializer.serializeEvent] at h

theorem payloadOf_honest {a : Application} {event : Event}
    (h : (a.payloadOf p event).isEmpty = false) (accepted : Bool) :
    (Obs.publish event (a.payloadOf p event) accepted).Honest p :=
  ⟨serializeEvent_allocated h, h⟩

theorem payloadOf_allocated {a : Application} (h : (p.env a.calls).allocated = true)
    (event : Event) : a.payloadOf p event = p.text event := by
  show MessageSerializer.serializeEvent p.cjson (p.env a.calls).allocated event _ _ = _
  rw [h]
  rfl

/-- The accepted payloads are the texts of the accepted events. -/
theorem Ready.payloads {a : Application} (hr : Ready p capacity mutex a) :
    a.payloads = a.accepted.map p.text := by
  have htrace : ∀ l : List Obs, (∀ o ∈ l, o.Honest p) → l.filterMap Obs.payload? =
      (((l.filterMap Obs.attempt?).filter (·.2)).map (·.1)).map p.text := by
    intro l hl
    induction l with
    | nil => rfl
    | cons o l ih =>
      have ih := ih fun o ho => hl o (List.mem_cons_of_mem _ ho)
      have ho := hl o List.mem_cons_self
      rw [List.filterMap_cons, List.filterMap_cons]
      cases o with
      | publish event payload accepted =>
        cases accepted with
        | true => simp only [Obs.payload?, Obs.attempt?, ih, ho.1]; rfl
        | false => exact ih
      | _ => exact ih
  exact htrace a.trace hr.honest

theorem ready_popHead {a : Application} (hr : Ready p capacity mutex a) :
    Ready p capacity mutex a.popHead := by
  refine ⟨?_, ?_, hr.wellFormed.pop, ?_, hr.honest⟩
  · exact (OfflineEventStore.pop_capacity _).trans hr.bound
  · exact (OfflineEventStore.pop_mutex _).trans hr.lock
  · intro hm
    have he := hr.idle hm
    show a.offlineStore.pop.1.events = []
    rw [OfflineEventStore.pop_nil he]
    exact he

theorem ready_observe {a : Application} (hr : Ready p capacity mutex a) {o : Obs}
    (ho : o.Honest p) : Ready p capacity mutex (a.observe o) :=
  ⟨hr.bound, hr.lock, hr.wellFormed, hr.idle, honest_observe hr.honest ho⟩

theorem ready_called {a : Application} (hr : Ready p capacity mutex a) :
    Ready p capacity mutex a.called :=
  ⟨hr.bound, hr.lock, hr.wellFormed, hr.idle, hr.honest⟩

/-- One iteration of the flush drops, delivers or offers the head. -/
theorem flushOne_advances {a : Application} (hr : Ready p capacity mutex a) {event : Event}
    (h : a.offlineStore.peek = some event) (hand : List Event) :
    Advances p capacity mutex a hand (a.flushOne p event).1 hand := by
  have hpop := popHead_events h
  rcases flushOne_cases p a event with ⟨hp, he⟩ | ⟨hp, _, he⟩ | ⟨hp, _, he⟩ <;> rw [he]
  · refine ⟨ready_observe (ready_popHead (ready_called hr)) hp, ?_, ?_⟩
    · rw [outbox_observe]
      simp only [Obs.assigned?, Obs.attempt?, Obs.lost?, Option.toList, List.append_nil]
      exact (Outbox.Step.drop (o := a.outbox hand) hpop).single
    · exact ⟨rfl, rfl, rfl, (issued_observe _ _).trans (List.append_nil _)⟩
  · refine ⟨ready_observe (ready_called (ready_called hr)) (payloadOf_honest hp false), ?_, ?_⟩
    · rw [outbox_observe]
      simp only [Obs.assigned?, Obs.attempt?, Obs.lost?, Option.toList, List.append_nil]
      exact (Outbox.Step.refuse (o := a.outbox hand) hpop).single
    · exact ⟨rfl, rfl, rfl, (issued_observe _ _).trans (List.append_nil _)⟩
  · have hr' := ready_observe (ready_called (ready_called hr)) (payloadOf_honest hp true)
    refine ⟨ready_popHead hr', ?_, ?_⟩
    · rw [outbox_popHead, outbox_observe]
      simp only [Obs.assigned?, Obs.attempt?, Obs.lost?, Option.toList, List.append_nil]
      exact (Outbox.Step.deliver (o := a.outbox hand) hpop).single
    · exact ⟨rfl, rfl, rfl, (issued_observe _ _).trans (List.append_nil _)⟩

theorem flushLoop_advances {a : Application} (hr : Ready p capacity mutex a) (hand : List Event) :
    Advances p capacity mutex a hand (a.flushLoop p) hand := by
  fun_induction flushLoop p a with
  | case1 a => exact Advances.refl hr hand
  | case2 a event h hgo ih =>
    have h1 := flushOne_advances hr h hand
    exact h1.trans (ih h1.ready)
  | case3 a event h hgo => exact flushOne_advances hr h hand

theorem flushOfflineEvents_advances {a : Application} (hr : Ready p capacity mutex a)
    (hand : List Event) :
    Advances p capacity mutex a hand (a.flushOfflineEvents p) hand := by
  have hc := advances_called hr hand
  unfold flushOfflineEvents isConnected
  cases (p.env a.calls).connected with
  | false => exact hc
  | true => exact hc.trans (flushLoop_advances hc.ready hand)

theorem flushIfPending_advances {a : Application} (hr : Ready p capacity mutex a)
    (hand : List Event) :
    Advances p capacity mutex a hand (a.flushIfPending p) hand := by
  unfold flushIfPending
  split
  · exact flushOfflineEvents_advances hr hand
  · exact Advances.refl hr hand

/-- A store without a head holds nothing, with or without a mutex. -/
theorem events_nil_of_peek {s : OfflineEventStore} (hidle : s.mutex = false → s.events = [])
    (h : s.peek = none) : s.events = [] := by
  cases hm : s.mutex with
  | false => exact hidle hm
  | true =>
    rw [OfflineEventStore.peek_of_mutex hm] at h
    exact List.head?_eq_none_iff.mp h

theorem Ready.unlocked {a : Application} (hr : Ready p capacity mutex a)
    (h : a.offlineStore.mutex = false) : a.offlineStore.events = [] :=
  hr.idle (hr.lock.symm.trans h)

/-! ## Publishing and buffering -/

/-- A store that answers `empty()` holds nothing, with or without a mutex. -/
theorem Ready.events_nil {a : Application} (hr : Ready p capacity mutex a)
    (h : a.offlineStore.empty = true) : a.offlineStore.events = [] := by
  cases hm : mutex with
  | false => exact hr.idle hm
  | true =>
    rw [OfflineEventStore.empty_of_mutex (hr.lock.trans hm)] at h
    exact List.isEmpty_iff.mp h

/-- The direct attempt either gives up before it publishes, or offers the
event while the store answers `empty()`. -/
theorem publishDirect_cases (p : Platform) (a : Application) (event : Event) :
    a.publishDirect p event = (a, false) ∨
    a.publishDirect p event = (a.called, false) ∨
    a.publishDirect p event = (a.called.called, false) ∨
    (a.offlineStore.empty = true ∧ (a.called.payloadOf p event).isEmpty = false ∧
      a.publishDirect p event = a.called.called.publish p event (a.called.payloadOf p event)) := by
  cases hempty : a.offlineStore.empty with
  | false => exact .inl (by simp [publishDirect, hempty])
  | true =>
    cases hcon : (p.env a.calls).connected with
    | false => exact .inr (.inl (by simp [publishDirect, hempty, isConnected, hcon]))
    | true =>
      cases hp : (a.called.payloadOf p event).isEmpty with
      | true =>
        simp only [payloadOf, serialize] at hp
        exact .inr (.inr (.inl (by simp [publishDirect, hempty, isConnected, hcon, serialize, hp])))
      | false =>
        refine .inr (.inr (.inr ⟨rfl, rfl, ?_⟩))
        simp only [payloadOf, serialize] at hp
        simp [publishDirect, hempty, isConnected, hcon, serialize, payloadOf, hp]

/-- The direct attempt takes the event out of hand exactly when it answers
that it returned. -/
theorem publishDirect_advances {a : Application} (hr : Ready p capacity mutex a) (event : Event) :
    Advances p capacity mutex a [event] (a.publishDirect p event).1
      (if (a.publishDirect p event).2 then [] else [event]) := by
  have hc := advances_called hr [event]
  have hcc := hc.trans (advances_called hc.ready [event])
  rcases publishDirect_cases p a event with he | he | he | ⟨hempty, hp, he⟩ <;> rw [he]
  · exact Advances.refl hr [event]
  · exact hc
  · exact hcc
  · have hnil : (a.outbox [event]).pending = [] := hr.events_nil hempty
    have hready := ready_observe (ready_called hcc.ready)
      (payloadOf_honest hp (p.env a.called.called.calls).accepted)
    unfold publish
    refine ⟨hready, ?_, ⟨rfl, rfl, rfl, (issued_observe _ _).trans (List.append_nil _)⟩⟩
    rw [outbox_observe]
    simp only [Obs.assigned?, Obs.attempt?, Obs.lost?, Option.toList, List.append_nil]
    cases (p.env a.called.called.calls).accepted with
    | false => exact (Outbox.Step.directRefused (o := a.outbox [event]) rfl hnil).single
    | true => exact (Outbox.Step.direct (o := a.outbox [event]) rfl hnil).single

theorem supersededObs_obs {s : OfflineEventStore} {event : Event} {o : Obs}
    (h : o ∈ supersededObs s event) : ∃ older, o = .superseded older event := by
  unfold supersededObs at h
  split at h
  · obtain ⟨older, _, rfl⟩ := List.mem_map.mp h
    exact ⟨older, rfl⟩
  · cases h

/-- What a push erases is, as losses, what the outbox clears. -/
theorem supersededObs_losses {s : OfflineEventStore} (hs : s.WellFormed) (hm : s.mutex = true)
    (event : Event) :
    (supersededObs s event).filterMap Obs.lost? =
      (s.events.filter (fun it => SameKey Event.key it event)).map
        (fun older => (older, Loss.superseded event)) := by
  rw [OfflineEventStore.filter_sameKey_eq hs, supersededObs, OfflineEventStore.lock, hm, if_pos rfl]
  cases s.supersededBy event <;> rfl

/-- A supersession is neither a number nor a publication. -/
theorem supersededObs_silent (s : OfflineEventStore) (event : Event) :
    (supersededObs s event).filterMap Obs.assigned? = [] ∧
      (supersededObs s event).filterMap Obs.attempt? = [] := by
  constructor <;> rw [List.filterMap_eq_nil_iff] <;> intro o ho <;>
    obtain ⟨older, rfl⟩ := supersededObs_obs ho <;> rfl

/-- The three ends of an unsent event: a heartbeat is discarded, any other
event replaces its source's entry at the back, or it meets a store that has
no mutex, or no room and no event of its source. -/
theorem bufferEvent_cases {a : Application} (hr : Ready p capacity mutex a) (event : Event) :
    (event.type = .heartbeat ∧ a.bufferEvent event =
      a.observe (.heartbeatDiscarded event a.offlineStore.events a.calls)) ∨
    (event.type ≠ .heartbeat ∧ a.offlineStore.mutex = true ∧
      (cleared Event.key event a.offlineStore.events).length < capacity ∧
      (a.offlineStore.push event).1.events =
        cleared Event.key event a.offlineStore.events ++ [event] ∧
      a.bufferEvent event = { a with
        offlineStore := (a.offlineStore.push event).1
        trace := a.trace ++ supersededObs a.offlineStore event ++ [.buffered event] }) ∨
    (event.type ≠ .heartbeat ∧
      (mutex = true → a.offlineStore.events.length = capacity ∧
        ∀ it ∈ a.offlineStore.events, ¬ SameKey Event.key it event) ∧
      a.bufferEvent event = a.observe (.bufferFull event a.offlineStore.events)) := by
  by_cases ht : event.type = .heartbeat
  · exact .inl ⟨ht, by simp [bufferEvent, ht]⟩
  · cases hm : a.offlineStore.mutex with
    | false =>
      have hlock : a.offlineStore.lock = false := hm
      refine .inr (.inr ⟨ht, fun h => absurd (hr.lock.trans h) (by simp [hm]), ?_⟩)
      simp [bufferEvent, ht, OfflineEventStore.push_of_no_mutex hm, supersededObs, hlock, observe]
    | true =>
      have hlock : a.offlineStore.lock = true := hm
      by_cases hroom : (cleared Event.key event a.offlineStore.events).length <
          a.offlineStore.capacity
      · have hpush := OfflineEventStore.push_stored hr.wellFormed hm hroom
        refine .inr (.inl ⟨ht, rfl, hr.bound ▸ hroom, by rw [hpush], ?_⟩)
        simp [bufferEvent, ht, hpush]
      · have hfull := Nat.le_of_not_lt hroom
        obtain ⟨hlen, hnone, hold⟩ := OfflineEventStore.no_room hr.wellFormed hfull
        refine .inr (.inr ⟨ht, fun _ => ⟨hlen.trans hr.bound, hnone⟩, ?_⟩)
        simp [bufferEvent, ht, OfflineEventStore.push_refused hr.wellFormed hfull, supersededObs,
          hlock, hold, observe]

theorem bufferEvent_advances {a : Application} (hr : Ready p capacity mutex a) (event : Event) :
    Advances p capacity mutex a [event] (a.bufferEvent event) [] := by
  rcases bufferEvent_cases hr event with ⟨ht, he⟩ | ⟨ht, hm, hroom, hev, he⟩ | ⟨ht, hno, he⟩ <;>
    rw [he]
  · refine ⟨ready_observe hr trivial, ?_,
      ⟨rfl, rfl, rfl, (issued_observe _ _).trans (List.append_nil _)⟩⟩
    rw [outbox_observe]
    simp only [Obs.assigned?, Obs.attempt?, Obs.lost?, Option.toList, List.append_nil]
    exact (Outbox.Step.discard (o := a.outbox [event]) rfl (by simp [outboxPolicy, ht])).single
  · obtain ⟨hi, ha⟩ := supersededObs_silent a.offlineStore event
    have hl := supersededObs_losses hr.wellFormed hm event
    have hpush := OfflineEventStore.push_stored hr.wellFormed hm (hr.bound ▸ hroom)
    refine ⟨⟨?_, ?_, hr.wellFormed.push event, fun h => ?_, ?_⟩, ?_, ⟨rfl, rfl, rfl, ?_⟩⟩
    · rw [hpush]; exact hr.bound
    · rw [hpush]; exact hr.lock
    · exact absurd (hm.symm.trans (hr.lock.trans h)) (by simp)
    · intro o ho
      rw [List.mem_append, List.mem_append, List.mem_singleton] at ho
      rcases ho with (ho | ho) | rfl
      · exact hr.honest o ho
      · obtain ⟨older, rfl⟩ := supersededObs_obs ho
        trivial
      · trivial
    · have hout : (a.bufferEvent event).outbox [] =
          { issued := a.issued
            attempts := a.attempts
            pending := cleared Event.key event a.offlineStore.events ++ [event]
            hand := []
            lost := a.losses ++
              (a.offlineStore.events.filter (fun it => SameKey Event.key it event)).map
                (fun it => (it, .superseded event)) } := by
        rw [he]
        simp [outbox, issued, attempts, losses, List.filterMap_cons, hl, hi, ha, hev,
          Obs.assigned?, Obs.attempt?, Obs.lost?]
      rw [← he, hout]
      exact (Outbox.Step.store (P := outboxPolicy capacity mutex) (o := a.outbox [event]) rfl
        (by simp [outboxPolicy, ht]) hroom).single
    · simp [issued, List.filterMap_append, hi, Obs.assigned?]
  · refine ⟨ready_observe hr trivial, ?_,
      ⟨rfl, rfl, rfl, (issued_observe _ _).trans (List.append_nil _)⟩⟩
    rw [outbox_observe]
    simp only [Obs.assigned?, Obs.attempt?, Obs.lost?, Option.toList, List.append_nil]
    refine (Outbox.Step.reject (o := a.outbox [event]) rfl (by simp [outboxPolicy, ht]) ?_).single
    intro hm
    obtain ⟨hlen, hnone⟩ := hno hm
    exact ⟨hlen.ge, hnone⟩

/-- What `publishOrBuffer` does after its flush. -/
def settle (p : Platform) (a : Application) (event : Event) : Application :=
  if (a.publishDirect p event).2 then (a.publishDirect p event).1
  else (a.publishDirect p event).1.bufferEvent event

theorem publishOrBuffer_eq (p : Platform) (a : Application) (event : Event) :
    a.publishOrBuffer p event = (a.flushIfPending p).settle p event := rfl

/-- It settles the event that it was handed. -/
theorem settle_advances {a : Application} (hr : Ready p capacity mutex a) (event : Event) :
    Advances p capacity mutex a [event] (a.settle p event) [] := by
  have hdirect := publishDirect_advances hr event
  unfold settle
  cases hsent : (a.publishDirect p event).2 with
  | true => simpa [hsent] using hdirect
  | false =>
    rw [hsent] at hdirect
    simpa using hdirect.trans (bufferEvent_advances hdirect.ready event)

theorem publishOrBuffer_advances {a : Application} (hr : Ready p capacity mutex a)
    (event : Event) :
    Advances p capacity mutex a [event] (a.publishOrBuffer p event) [] := by
  have hflush := flushIfPending_advances hr [event]
  exact hflush.trans (settle_advances hflush.ready event)

/-! ## Processing -/

/-- The flush that a connection event triggers. -/
def onConnected (p : Platform) (a : Application) (event : Event) : Application :=
  if event.type = .mqttConnected then a.flushOfflineEvents p else a

/-- The local half of `processEvent`: state manager and output manager. -/
def applied (a : Application) (event : Event) : Application :=
  { a with
    stateManager := a.stateManager.handleEvent event
    statusLed := OutputManager.handleEvent a.statusLed event }

/-- The event takes the next number. -/
def numbered (a : Application) (event : Event) : Application :=
  { a with nextSequenceId := a.nextSequenceId + 1 }.observe
    (.assigned { event with sequenceId := a.nextSequenceId } a.calls)

theorem processEvent_local {event : Event} (h : shouldPublish event = false) (a : Application) :
    a.processEvent p event = (a.onConnected p event).applied event := by
  simp [processEvent, onConnected, applied, h]

theorem processEvent_published {event : Event} (h : shouldPublish event = true)
    (a : Application) :
    a.processEvent p event =
      (((a.onConnected p event).applied event).numbered event).publishOrBuffer p
        { event with sequenceId := (a.onConnected p event).nextSequenceId } := by
  simp [processEvent, onConnected, applied, numbered, h]

theorem onConnected_advances {a : Application} (hr : Ready p capacity mutex a) (event : Event)
    (hand : List Event) :
    Advances p capacity mutex a hand (a.onConnected p event) hand := by
  unfold onConnected
  split
  · exact flushOfflineEvents_advances hr hand
  · exact Advances.refl hr hand

theorem ready_applied {a : Application} (hr : Ready p capacity mutex a) (event : Event) :
    Ready p capacity mutex (a.applied event) :=
  ⟨hr.bound, hr.lock, hr.wellFormed, hr.idle, hr.honest⟩

theorem ready_numbered {a : Application} (hr : Ready p capacity mutex a) (event : Event) :
    Ready p capacity mutex (a.numbered event) :=
  ready_observe (a := { a with nextSequenceId := a.nextSequenceId + 1 })
    ⟨hr.bound, hr.lock, hr.wellFormed, hr.idle, hr.honest⟩ trivial

variable (capacity mutex) in
/-- Taking a number is issuing. -/
theorem numbered_steps (a : Application) (event : Event) :
    Outbox.Steps (outboxPolicy capacity mutex) (a.outbox [])
      ((a.numbered event).outbox [{ event with sequenceId := a.nextSequenceId }]) := by
  unfold numbered
  rw [outbox_observe]
  simp only [Obs.assigned?, Obs.attempt?, Obs.lost?, Option.toList, List.append_nil]
  exact (Outbox.Step.issue (o := a.outbox []) _ rfl).single

variable (p capacity mutex) in
/-- Everything `processEvent` does, up to the order of the outbox's moves. -/
structure Processed (a a' : Application) (event : Event) : Prop where
  ready : Ready p capacity mutex a'
  steps : Outbox.Steps (outboxPolicy capacity mutex) (a.outbox []) (a'.outbox [])
  stateManager : a'.stateManager = a.stateManager.handleEvent event
  statusLed : a'.statusLed = OutputManager.handleEvent a.statusLed event
  issued : a'.issued = a.issued ++
    if shouldPublish event then [{ event with sequenceId := a.nextSequenceId }] else []
  nextSequenceId : a'.nextSequenceId =
    if shouldPublish event then a.nextSequenceId + 1 else a.nextSequenceId

theorem processEvent_processed {a : Application} (hr : Ready p capacity mutex a) (event : Event) :
    Processed p capacity mutex a (a.processEvent p event) event := by
  have hc := onConnected_advances hr event []
  have hready := ready_applied hc.ready event
  have hstate : ((a.onConnected p event).applied event).stateManager =
      a.stateManager.handleEvent event := by rw [applied, hc.untouched.stateManager]
  have hled : ((a.onConnected p event).applied event).statusLed =
      OutputManager.handleEvent a.statusLed event := by rw [applied, hc.untouched.statusLed]
  cases h : shouldPublish event with
  | false =>
    rw [processEvent_local h]
    refine ⟨hready, hc.steps, hstate, hled, ?_, ?_⟩
    · rw [h]; exact hc.untouched.issued.trans (List.append_nil _).symm
    · rw [h]; exact hc.untouched.nextSequenceId
  | true =>
    have hn := numbered_steps capacity mutex ((a.onConnected p event).applied event) event
    have hp := publishOrBuffer_advances (ready_numbered hready event)
      { event with sequenceId := (a.onConnected p event).nextSequenceId }
    rw [processEvent_published h]
    refine ⟨hp.ready, (hc.steps.trans hn).trans hp.steps, hp.untouched.stateManager.trans hstate,
      hp.untouched.statusLed.trans hled, ?_, ?_⟩
    · rw [hp.untouched.issued, numbered, issued_observe, ← hc.untouched.issued,
        ← hc.untouched.nextSequenceId, h]
      rfl
    · rw [hp.untouched.nextSequenceId, if_pos h, ← hc.untouched.nextSequenceId]
      rfl

/-! ## Calls are counted upwards -/

theorem flushOne_calls (a : Application) (event : Event) :
    a.calls < (a.flushOne p event).1.calls := by
  rcases flushOne_cases p a event with ⟨_, he⟩ | ⟨_, _, he⟩ | ⟨_, _, he⟩ <;> rw [he] <;>
    simp only [called, observe, popHead] <;> omega

theorem flushLoop_calls (a : Application) : a.calls ≤ (a.flushLoop p).calls := by
  fun_induction flushLoop p a with
  | case1 a => exact Nat.le_refl _
  | case2 a event h hgo ih => exact Nat.le_trans (Nat.le_of_lt (flushOne_calls a event)) ih
  | case3 a event h hgo => exact Nat.le_of_lt (flushOne_calls a event)

theorem flushOfflineEvents_calls (a : Application) :
    a.calls < (a.flushOfflineEvents p).calls := by
  have hcalled : a.calls < a.called.calls := Nat.lt_succ_self _
  unfold flushOfflineEvents isConnected
  cases (p.env a.calls).connected with
  | false => exact hcalled
  | true => exact Nat.lt_of_lt_of_le hcalled (flushLoop_calls a.called)

theorem flushIfPending_calls (a : Application) : a.calls ≤ (a.flushIfPending p).calls := by
  unfold flushIfPending
  split
  · exact Nat.le_of_lt (flushOfflineEvents_calls a)
  · exact Nat.le_refl _

theorem publishDirect_calls (a : Application) (event : Event) :
    a.calls ≤ (a.publishDirect p event).1.calls := by
  rcases publishDirect_cases p a event with he | he | he | ⟨_, _, he⟩ <;> rw [he] <;>
    simp [publish, called, observe] <;> omega

theorem bufferEvent_calls (a : Application) (event : Event) :
    (a.bufferEvent event).calls = a.calls := by
  unfold bufferEvent
  split <;> rfl

theorem publishOrBuffer_calls (a : Application) (event : Event) :
    a.calls ≤ (a.publishOrBuffer p event).calls ∧
      ((a.flushIfPending p).publishDirect p event).1.calls ≤ (a.publishOrBuffer p event).calls := by
  have hflush := flushIfPending_calls (p := p) a
  have hdirect := publishDirect_calls (p := p) (a.flushIfPending p) event
  have hend : ((a.flushIfPending p).publishDirect p event).1.calls ≤
      (a.publishOrBuffer p event).calls := by
    unfold publishOrBuffer
    simp only
    split
    · exact Nat.le_refl _
    · rw [bufferEvent_calls]
  exact ⟨Nat.le_trans (Nat.le_trans hflush hdirect) hend, hend⟩

theorem onConnected_calls (a : Application) (event : Event) :
    a.calls ≤ (a.onConnected p event).calls := by
  unfold onConnected
  split
  · exact Nat.le_of_lt (flushOfflineEvents_calls a)
  · exact Nat.le_refl _

theorem processEvent_calls (a : Application) (event : Event) :
    a.calls ≤ (a.processEvent p event).calls := by
  refine Nat.le_trans (onConnected_calls (p := p) a event) ?_
  cases h : shouldPublish event with
  | false => rw [processEvent_local h, applied]
  | true =>
    rw [processEvent_published h]
    exact (publishOrBuffer_calls (((a.onConnected p event).applied event).numbered event) _).1

/-! ## Runs -/

/-- One call from outside: moves of the outbox, and at most one new number. -/
theorem call_advances {a : Application} (hr : Ready p capacity mutex a) (call : Call) :
    Ready p capacity mutex (a.call p call) ∧
    Outbox.Steps (outboxPolicy capacity mutex) (a.outbox []) ((a.call p call).outbox []) ∧
    (a.call p call).issued = a.issued ++ (call.published?.map
      fun event => { event with sequenceId := a.nextSequenceId }).toList ∧
    (a.call p call).nextSequenceId =
      a.nextSequenceId + UInt32.ofNat call.published?.toList.length := by
  cases call with
  | processEvent event =>
    have h := processEvent_processed hr event
    refine ⟨h.ready, h.steps, h.issued.trans ?_, h.nextSequenceId.trans ?_⟩ <;>
      cases hs : shouldPublish event <;> simp [Call.published?, hs]
  | flushOfflineEvents =>
    have h := flushOfflineEvents_advances hr []
    refine ⟨h.ready, h.steps, h.untouched.issued.trans ?_, h.untouched.nextSequenceId.trans ?_⟩
    · exact (List.append_nil _).symm
    · simp [Call.published?]

/-- The store of a fresh application is fresh. -/
theorem boot_ready (p : Platform) (capacity : Nat) (mutex : Bool) (led : LedDriver) :
    Ready p capacity mutex (boot (OfflineEventStore.create capacity mutex) led) :=
  ⟨rfl, rfl, OfflineEventStore.create_wellFormed capacity mutex, fun _ => rfl, by simp [boot]⟩

theorem run_ready {a : Application} (hr : Ready p capacity mutex a) (calls : List Call) :
    Ready p capacity mutex (a.run p calls) ∧
      Outbox.Steps (outboxPolicy capacity mutex) (a.outbox []) ((a.run p calls).outbox []) := by
  induction calls generalizing a with
  | nil => exact ⟨hr, Relation.ReflTransGen.refl⟩
  | cons call calls ih =>
    obtain ⟨hready, hsteps, -⟩ := call_advances hr call
    obtain ⟨hready', hsteps'⟩ := ih hready
    exact ⟨hready', hsteps.trans hsteps'⟩

/-! ## Numbering -/

/-- The numbers run from 1 upwards, modulo 2^32, and the counter holds the
next one. -/
structure InSequence (a : Application) : Prop where
  numbers : a.issued.map Event.sequenceId = (List.range' 1 a.issued.length).map UInt32.ofNat
  next : a.nextSequenceId = UInt32.ofNat (a.issued.length + 1)

theorem boot_inSequence (store : OfflineEventStore) (led : LedDriver) :
    (boot store led).InSequence := ⟨rfl, rfl⟩

theorem call_inSequence {a : Application} (hr : Ready p capacity mutex a) (hs : a.InSequence)
    (call : Call) : (a.call p call).InSequence ∧
      (a.call p call).issued.length = a.issued.length + call.published?.toList.length := by
  obtain ⟨-, -, hissued, hnext⟩ := call_advances hr call
  have hlen : (a.call p call).issued.length =
      a.issued.length + call.published?.toList.length := by
    rw [hissued, List.length_append]
    cases call.published? <;> rfl
  refine ⟨⟨?_, ?_⟩, hlen⟩
  · rw [hlen, hissued, List.map_append, hs.numbers]
    cases call.published? with
    | none => simp
    | some event =>
      show List.map UInt32.ofNat (List.range' 1 a.issued.length) ++ [a.nextSequenceId] =
        List.map UInt32.ofNat (List.range' 1 (a.issued.length + 1))
      rw [List.range'_concat, List.map_append, hs.next, Nat.one_mul, Nat.add_comm 1]
      rfl
  · rw [hlen, hnext, hs.next, ← UInt32.ofNat_add]
    congr 1
    omega

theorem run_inSequence {a : Application} (hr : Ready p capacity mutex a) (hs : a.InSequence)
    (calls : List Call) : (a.run p calls).InSequence ∧
      (a.run p calls).issued.length =
        a.issued.length + (calls.filterMap Call.published?).length := by
  induction calls generalizing a with
  | nil => exact ⟨hs, rfl⟩
  | cons call calls ih =>
    obtain ⟨hs', hlen⟩ := call_inSequence hr hs call
    obtain ⟨hs'', hlen'⟩ := ih (call_advances hr call).1 hs'
    refine ⟨hs'', hlen'.trans ?_⟩
    rw [hlen, List.filterMap_cons]
    cases call.published? with
    | none => rfl
    | some event =>
      simp only [Option.toList_some, List.length_cons, List.length_nil]
      omega

/-- Below 2^32 the numbers of the issued events increase as numbers. -/
theorem InSequence.increasing {a : Application} (hs : a.InSequence)
    (hlen : a.issued.length < 2 ^ 32) :
    a.issued.Pairwise (fun x y => x.sequenceId < y.sequenceId) := by
  rw [← List.pairwise_map (R := (· < ·)), hs.numbers, List.pairwise_map]
  refine List.Pairwise.imp_of_mem ?_ List.pairwise_lt_range'
  intro x y hx hy hxy
  have hx := List.mem_range'_1.mp hx
  have hy := List.mem_range'_1.mp hy
  rw [UInt32.lt_iff_toNat_lt, UInt32.toNat_ofNat', UInt32.toNat_ofNat',
    Nat.mod_eq_of_lt (by omega), Nat.mod_eq_of_lt (by omega)]
  exact hxy

end Advances

end Application

end KaizenStation.Firmware
