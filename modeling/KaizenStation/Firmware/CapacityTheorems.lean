/-
KaizenStation.Firmware.CapacityTheorems — when "Offline event buffer full"
is reached.

`RoomFor` is the condition, on the state in which `publishOrBuffer` finds an
event of a physical source and on the platform's next answers: the events
the source does not supersede leave a place, or the flush that comes first
frees one. A store that has no mutex stores nothing, so there the event has
to be sent at once. A step with room keeps the event, a step without room
refuses it (`publishOrBuffer_physical`), and so a run refuses only system
events exactly when every physical event of it found room
(`full_buffer_only_system`).

Sixty-four buffered faults are enough to leave no room.
-/
import KaizenStation.Firmware.DeliveryTheorems

namespace KaizenStation.Firmware

open KaizenStation.Foundation

/-- The event refused in the "Offline event buffer full" branch. -/
def Obs.refused? : Obs → Option Event
  | .bufferFull event _ => some event
  | _ => none

/-- An event of a physical source, which a full buffer should not lose. -/
structure Event.Physical (event : Event) : Prop where
  source : event.sourceId ≠ 0
  publishable : Application.shouldPublish event = true
  kept : event.type ≠ .heartbeat

namespace Application

/-- The events refused by a full buffer so far. -/
def refusals (a : Application) : List Event := a.trace.filterMap Obs.refused?

theorem refusals_observe (a : Application) (o : Obs) :
    (a.observe o).refusals = a.refusals ++ o.refused?.toList :=
  filterMap_append_singleton _ _ _

/-- The flush at the start of `publishOrBuffer` gets rid of the head. -/
def Frees (p : Platform) (a : Application) : Prop :=
  (p.env a.calls).connected = true ∧ ∀ head ∈ a.offlineStore.events.head?,
    (a.called.payloadOf p head).isEmpty = true ∨ (p.env (a.calls + 2)).accepted = true

/-- The direct attempt on a store that answers `empty()` is accepted. -/
def SentAtOnce (p : Platform) (a : Application) (event : Event) : Prop :=
  (p.env a.calls).connected = true ∧ (a.called.payloadOf p event).isEmpty = false ∧
    (p.env (a.calls + 2)).accepted = true

/-- With a mutex, fewer events than places are buffered that are not of the
event's source, or the flush frees a place. Without one, the event is sent at
once. -/
def RoomFor (p : Platform) (a : Application) (event : Event) : Prop :=
  (a.offlineStore.mutex = true ∧
    ((a.offlineStore.events.filter (fun b => b.sourceId ≠ event.sourceId)).length <
      OFFLINE_EVENT_QUEUE_SIZE ∨ Frees p a)) ∨
  (a.offlineStore.mutex = false ∧ SentAtOnce p a event)

section Step

variable {p : Platform} {capacity : Nat} {mutex : Bool}

/-! ## The flush -/

theorem flushOne_refusals (a : Application) (event : Event) :
    (a.flushOne p event).1.refusals = a.refusals := by
  rcases flushOne_cases p a event with ⟨_, he⟩ | ⟨_, _, he⟩ | ⟨_, _, he⟩ <;> rw [he]
  · exact (refusals_observe _ _).trans (List.append_nil _)
  · exact (refusals_observe _ _).trans (List.append_nil _)
  · exact (refusals_observe a.called.called _).trans (List.append_nil _)

/-- The loop refuses nothing and leaves a suffix of the buffer. -/
theorem flushLoop_suffix (a : Application) :
    (a.flushLoop p).refusals = a.refusals ∧
      (a.flushLoop p).offlineStore.events <:+ a.offlineStore.events := by
  fun_induction flushLoop p a with
  | case1 a => exact ⟨rfl, List.suffix_refl _⟩
  | case2 a event h hgo ih =>
    refine ⟨ih.1.trans (flushOne_refusals a event), ih.2.trans ?_⟩
    rw [flushOne_shortens p h hgo]
    exact List.suffix_cons _ _
  | case3 a event h hgo =>
    refine ⟨flushOne_refusals a event, ?_⟩
    rcases flushOne_cases p a event with ⟨_, he⟩ | ⟨_, _, he⟩ | ⟨_, _, he⟩ <;> rw [he]
    · rw [he] at hgo
      exact absurd rfl hgo
    · exact List.suffix_refl _
    · rw [he] at hgo
      exact absurd rfl hgo

theorem flushIfPending_refusals (a : Application) :
    (a.flushIfPending p).refusals = a.refusals := by
  unfold flushIfPending flushOfflineEvents isConnected
  split
  · cases (p.env a.calls).connected with
    | false => rfl
    | true => exact (flushLoop_suffix a.called).1
  · rfl

/-- A flush that gets rid of the head leaves fewer events, any other flush
leaves them all. -/
theorem flushIfPending_events {a : Application} (hm : a.offlineStore.mutex = true) :
    (Frees p a ∧ ((a.flushIfPending p).offlineStore.events.length < a.offlineStore.events.length ∨
      (a.flushIfPending p).offlineStore.events = [])) ∨
    (¬ Frees p a ∧ (a.flushIfPending p).offlineStore.events = a.offlineStore.events) := by
  unfold flushIfPending flushOfflineEvents isConnected
  rw [OfflineEventStore.empty_of_mutex hm]
  cases hcon : (p.env a.calls).connected with
  | false =>
    refine .inr ⟨fun hf => absurd (hf.1.symm.trans hcon) (by simp), ?_⟩
    split <;> rfl
  | true =>
    cases hev : a.offlineStore.events with
    | nil =>
      exact .inl ⟨⟨hcon, by simp [hev]⟩, .inr hev⟩
    | cons head rest =>
      have hpeek : a.called.offlineStore.peek = some head := by
        show a.offlineStore.peek = some head
        rw [OfflineEventStore.peek_of_mutex hm, hev]
        rfl
      have hfrees : Frees p a ↔
          (a.called.payloadOf p head).isEmpty = true ∨ (p.env (a.calls + 2)).accepted = true := by
        simp [Frees, hcon, hev]
      -- the loop goes on with a store that has lost its head
      have hshorter : ∀ b : Application, b.offlineStore = a.called.popHead.offlineStore →
          (b.flushLoop p).offlineStore.events.length < (head :: rest).length := by
        intro b hb
        have hpop : a.offlineStore.events = head :: a.called.popHead.offlineStore.events :=
          popHead_events hpeek
        rw [← hev, hpop, ← hb]
        exact Nat.lt_succ_of_le (flushLoop_suffix b).2.length_le
      simp only [List.isEmpty_cons, Bool.not_false, Bool.not_true, if_true, Bool.false_eq_true,
        if_false]
      rw [flushLoop_some p hpeek]
      rcases flushOne_cases p a.called head with ⟨hp, he⟩ | ⟨hp, hacc, he⟩ | ⟨hp, hacc, he⟩ <;>
        rw [he]
      · exact .inl ⟨hfrees.mpr (.inl hp), .inl (hshorter _ rfl)⟩
      · refine .inr ⟨fun hf => ?_, hev⟩
        rcases hfrees.mp hf with h | h
        · rw [hp] at h; cases h
        · have hacc' : (p.env (a.calls + 2)).accepted = false := hacc
          rw [hacc'] at h
          cases h
      · exact .inl ⟨hfrees.mpr (.inr hacc), .inl (hshorter _ rfl)⟩

/-! ## Publishing and buffering -/

theorem publishDirect_store (a : Application) (event : Event) :
    (a.publishDirect p event).1.offlineStore = a.offlineStore := by
  rcases publishDirect_cases p a event with he | he | he | ⟨_, _, he⟩ <;> rw [he] <;> rfl

theorem publishDirect_refusals (a : Application) (event : Event) :
    (a.publishDirect p event).1.refusals = a.refusals := by
  rcases publishDirect_cases p a event with he | he | he | ⟨_, _, he⟩ <;> rw [he]
  · rfl
  · rfl
  · exact (refusals_observe a.called.called.called _).trans (List.append_nil _)

/-- An event that `publishDirect` reports as sent was accepted, with nothing
in the store. -/
theorem publishDirect_sent {a : Application} {event : Event}
    (h : (a.publishDirect p event).2 = true) :
    a.offlineStore.empty = true ∧ event ∈ (a.publishDirect p event).1.accepted := by
  rcases publishDirect_cases p a event with he | he | he | ⟨hempty, _, he⟩ <;> rw [he] at h ⊢
  · cases h
  · cases h
  · cases h
  · have hmem : (event, true) ∈ (a.called.called.publish p event
        (a.called.payloadOf p event)).1.attempts := by
      simp only [publish] at h ⊢
      rw [attempts_observe, h]
      simp [Obs.attempt?]
    exact ⟨hempty, (Outbox.mem_delivered (o := Application.outbox _ [])).mpr hmem⟩

/-- On a store that answers `empty()`, the direct attempt reports the event as
sent exactly when it is. -/
theorem publishDirect_sent_iff {a : Application} (hempty : a.offlineStore.empty = true)
    (event : Event) : (a.publishDirect p event).2 = true ↔ SentAtOnce p a event := by
  unfold SentAtOnce publishDirect payloadOf isConnected serialize publish
  rw [hempty]
  cases (p.env a.calls).connected with
  | false => simp
  | true =>
    simp only [Bool.not_true, Bool.false_eq_true, if_false, true_and]
    split
    · next hp => simp_all
    · next hp => exact ⟨fun h => ⟨Bool.eq_false_iff.mpr hp, h⟩, fun h => h.2⟩

theorem bufferEvent_refusals {a : Application} (hr : Ready p capacity mutex a) (event : Event) :
    ((a.bufferEvent event).refusals = a.refusals ∧
      (event.type ≠ .heartbeat → a.offlineStore.mutex = true ∧
        event ∈ (a.bufferEvent event).offlineStore.events ∧
        (cleared Event.key event a.offlineStore.events).length < capacity)) ∨
    ((a.bufferEvent event).refusals = a.refusals ++ [event] ∧ event.type ≠ .heartbeat ∧
      (mutex = true → a.offlineStore.events.length = capacity ∧
        ∀ b ∈ a.offlineStore.events, ¬ SameKey Event.key b event)) := by
  rcases bufferEvent_cases hr event with ⟨ht, he⟩ | ⟨_, hm, hroom, hev, he⟩ | ⟨ht, hno, he⟩ <;>
    rw [he]
  · refine .inl ⟨(refusals_observe _ _).trans (List.append_nil _), fun h => absurd ht h⟩
  · refine .inl ⟨?_, fun _ => ⟨hm, by rw [hev]; simp, hroom⟩⟩
    have hs : (supersededObs a.offlineStore event).filterMap Obs.refused? = [] :=
      List.filterMap_eq_nil_iff.mpr fun o ho => by
        obtain ⟨older, rfl⟩ := supersededObs_obs ho
        rfl
    simp [refusals, List.filterMap_append, hs, Obs.refused?]
  · exact .inr ⟨refusals_observe _ _, ht, hno⟩

/-- The event that is handed over is the only one that can be refused. -/
theorem publishOrBuffer_refusals {a : Application} (hr : Ready p capacity mutex a)
    (event : Event) :
    (a.publishOrBuffer p event).refusals = a.refusals ∨
      (event.type ≠ .heartbeat ∧
        (a.publishOrBuffer p event).refusals = a.refusals ++ [event]) := by
  have hflush := flushIfPending_advances hr [event]
  have hdirect := publishDirect_advances hflush.ready event
  have href : ((a.flushIfPending p).publishDirect p event).1.refusals = a.refusals :=
    (publishDirect_refusals _ event).trans (flushIfPending_refusals a)
  unfold publishOrBuffer
  cases hsent : ((a.flushIfPending p).publishDirect p event).2 with
  | true => exact .inl (by simpa [hsent] using href)
  | false =>
    simp only [hsent, Bool.false_eq_true, if_false]
    rw [hsent] at hdirect
    rcases bufferEvent_refusals hdirect.ready event with ⟨hsame, _⟩ | ⟨hnew, ht, _⟩
    · exact .inl (hsame.trans href)
    · exact .inr ⟨ht, by rw [hnew, href]⟩

/-- Without a flush to help, a full buffer of other sources leaves no
room. -/
theorem not_roomFor {a : Application} {event : Event} (hev : event.sourceId ≠ 0)
    (hfull : a.offlineStore.events.length = OFFLINE_EVENT_QUEUE_SIZE)
    (hnone : ∀ b ∈ a.offlineStore.events, ¬ SameKey Event.key b event) (hf : ¬ Frees p a) :
    ¬ ((a.offlineStore.events.filter (fun b => b.sourceId ≠ event.sourceId)).length <
      OFFLINE_EVENT_QUEUE_SIZE ∨ Frees p a) := by
  have hall : a.offlineStore.events.filter (fun b => b.sourceId ≠ event.sourceId) =
      a.offlineStore.events := by
    rw [List.filter_eq_self]
    intro b hb
    exact decide_eq_true fun h => hnone b hb (sameKey_iff.mpr ⟨h, hev⟩)
  rintro (h | h)
  · rw [hall, hfull] at h
    exact absurd h (Nat.lt_irrefl _)
  · exact hf h

/-- With fewer other events than places, the store has room once the
event's source is cleared. -/
theorem cleared_eq_filter {event : Event} (hev : event.sourceId ≠ 0) (l : List Event) :
    cleared Event.key event l = l.filter (fun b => b.sourceId ≠ event.sourceId) := by
  refine List.filter_congr fun b _ => ?_
  simp [sameKey_iff, hev]

/-- What becomes of a physical event: with room it is accepted or waits and
nothing is refused, without room it is refused. -/
structure Settles (p : Platform) (a : Application) (event : Event) (a' : Application) : Prop where
  room : RoomFor p a event → a'.refusals = a.refusals ∧
    (event ∈ a'.accepted ∨ event ∈ a'.offlineStore.events)
  full : ¬ RoomFor p a event → a'.refusals = a.refusals ++ [event]

theorem settles_of_room {a a' : Application} {event : Event} (h : RoomFor p a event)
    (hr : a'.refusals = a.refusals)
    (hk : event ∈ a'.accepted ∨ event ∈ a'.offlineStore.events) : Settles p a event a' :=
  ⟨fun _ => ⟨hr, hk⟩, fun hno => absurd h hno⟩

theorem settles_of_full {a a' : Application} {event : Event} (h : ¬ RoomFor p a event)
    (hr : a'.refusals = a.refusals ++ [event]) : Settles p a event a' :=
  ⟨fun hroom => absurd hroom h, fun _ => hr⟩

theorem roomFor_of_mutex {a : Application} (hm : a.offlineStore.mutex = true) (event : Event) :
    RoomFor p a event ↔
      (a.offlineStore.events.filter (fun b => b.sourceId ≠ event.sourceId)).length <
        OFFLINE_EVENT_QUEUE_SIZE ∨ Frees p a := by
  simp [RoomFor, hm]

theorem roomFor_of_no_mutex {a : Application} (hm : a.offlineStore.mutex = false)
    (event : Event) : RoomFor p a event ↔ SentAtOnce p a event := by
  simp [RoomFor, hm]

/-- Without a mutex nothing is flushed or stored, so the direct attempt
decides. -/
theorem publishOrBuffer_unlocked {a : Application} (hr : Ready p capacity false a) (event : Event)
    (ht : event.type ≠ .heartbeat) : Settles p a event (a.publishOrBuffer p event) := by
  have hempty : a.offlineStore.empty = true := by
    simp [OfflineEventStore.empty, OfflineEventStore.lock, hr.lock]
  have hdirect := publishDirect_advances hr event
  have href := publishDirect_refusals (p := p) a event
  have hstore := publishDirect_store (p := p) a event
  have hflush : a.flushIfPending p = a := by simp [flushIfPending, hempty]
  have hiff := publishDirect_sent_iff (p := p) hempty event
  unfold publishOrBuffer
  rw [hflush]
  cases hsent : (a.publishDirect p event).2 with
  | true =>
    have hacc := (publishDirect_sent hsent).2
    exact settles_of_room ((roomFor_of_no_mutex hr.lock event).mpr (hiff.mp hsent))
      (by simpa [hsent] using href) (.inl (by simpa [hsent] using hacc))
  | false =>
    have hno : ¬ RoomFor p a event := fun h =>
      absurd (hiff.mpr ((roomFor_of_no_mutex hr.lock event).mp h)) (by simp [hsent])
    simp only [hsent, Bool.false_eq_true, if_false]
    rw [hsent] at hdirect
    rcases bufferEvent_refusals hdirect.ready event with ⟨_, hin⟩ | ⟨hnew, _⟩
    · exact absurd ((hstore ▸ (hin ht).1).symm.trans hr.lock) (by simp)
    · exact settles_of_full hno (hnew.trans (by rw [href]))

/-- With a mutex, the flush and the places that other sources leave decide. -/
theorem publishOrBuffer_locked {a : Application} (hr : Ready p OFFLINE_EVENT_QUEUE_SIZE true a)
    (event : Event) (hs : event.sourceId ≠ 0) (ht : event.type ≠ .heartbeat) :
    Settles p a event (a.publishOrBuffer p event) := by
  have hflush := flushIfPending_advances hr [event]
  have hdirect := publishDirect_advances hflush.ready event
  have href : ((a.flushIfPending p).publishDirect p event).1.refusals = a.refusals :=
    (publishDirect_refusals _ event).trans (flushIfPending_refusals a)
  have hstore := publishDirect_store (p := p) (a.flushIfPending p) event
  have hkept := flushIfPending_events (p := p) hr.lock
  have hiff := roomFor_of_mutex (p := p) hr.lock event
  unfold publishOrBuffer
  cases hsent : ((a.flushIfPending p).publishDirect p event).2 with
  | true =>
    obtain ⟨hempty, hacc⟩ := publishDirect_sent hsent
    have hnil := hflush.ready.events_nil hempty
    refine settles_of_room (hiff.mpr ?_) (by simpa [hsent] using href)
      (.inl (by simpa [hsent] using hacc))
    rcases hkept with ⟨hf, _⟩ | ⟨_, hev⟩
    · exact .inr hf
    · refine .inl ?_
      rw [← hev, hnil]
      show 0 < OFFLINE_EVENT_QUEUE_SIZE
      decide
  | false =>
    simp only [hsent, Bool.false_eq_true, if_false]
    rw [hsent] at hdirect
    rcases bufferEvent_refusals hdirect.ready event with ⟨hsame, hin⟩ | ⟨hnew, _, hno⟩
    · obtain ⟨_, hmem, hroom⟩ := hin ht
      refine settles_of_room (hiff.mpr ?_) (hsame.trans href) (.inr hmem)
      rcases hkept with ⟨hf, _⟩ | ⟨_, hev⟩
      · exact .inr hf
      · rw [hstore, hev, cleared_eq_filter hs] at hroom
        exact .inl hroom
    · obtain ⟨hfull, hnone⟩ := hno rfl
      rw [hstore] at hfull hnone
      refine settles_of_full (fun h => ?_) (by rw [hnew, href])
      rcases hkept with ⟨_, hlt | hnil⟩ | ⟨hf, hev⟩
      · have hb := hr.wellFormed.bounded
        rw [hr.bound] at hb
        omega
      · rw [hnil] at hfull
        exact absurd hfull (by decide)
      · rw [hev] at hfull hnone
        exact not_roomFor hs hfull hnone hf (hiff.mp h)

/-- A physical event with room is accepted or waits afterwards and nothing
is refused; without room it is refused. -/
theorem publishOrBuffer_physical {a : Application}
    (hr : Ready p OFFLINE_EVENT_QUEUE_SIZE mutex a) (event : Event) (hs : event.sourceId ≠ 0)
    (ht : event.type ≠ .heartbeat) : Settles p a event (a.publishOrBuffer p event) := by
  cases mutex with
  | true => exact publishOrBuffer_locked hr event hs ht
  | false => exact publishOrBuffer_unlocked hr event ht

theorem onConnected_refusals (a : Application) (event : Event) :
    (a.onConnected p event).refusals = a.refusals := by
  unfold onConnected flushOfflineEvents isConnected
  split
  · cases (p.env a.calls).connected with
    | false => rfl
    | true => exact (flushLoop_suffix a.called).1
  · rfl

theorem numbered_refusals (a : Application) (event : Event) :
    (a.numbered event).refusals = a.refusals :=
  (refusals_observe _ _).trans (List.append_nil _)

theorem processEvent_refusals {a : Application} (hr : Ready p capacity mutex a) (event : Event) :
    (a.processEvent p event).refusals = a.refusals ∨
      (shouldPublish event = true ∧ event.type ≠ .heartbeat ∧ (a.processEvent p event).refusals =
        a.refusals ++ [{ event with sequenceId := a.nextSequenceId }]) := by
  have hc := onConnected_advances hr event []
  cases hpub : shouldPublish event with
  | false =>
    rw [processEvent_local hpub]
    exact .inl (onConnected_refusals a event)
  | true =>
    rw [processEvent_published hpub, hc.untouched.nextSequenceId]
    have hstep := publishOrBuffer_refusals (ready_numbered (ready_applied hc.ready event) event)
      { event with sequenceId := a.nextSequenceId }
    have hbase : (((a.onConnected p event).applied event).numbered event).refusals =
        a.refusals := (numbered_refusals _ event).trans (onConnected_refusals a event)
    rw [hbase] at hstep
    rcases hstep with h | ⟨ht, h⟩
    · exact .inl h
    · exact .inr ⟨rfl, ht, h⟩

/-- The physical event that `processEvent` numbers is kept exactly when
there is room for it. -/
theorem processEvent_physical {a : Application} (hr : Ready p OFFLINE_EVENT_QUEUE_SIZE mutex a)
    {event : Event} (hphys : event.Physical) :
    Settles p a { event with sequenceId := a.nextSequenceId } (a.processEvent p event) := by
  have hm : event.type ≠ .mqttConnected := by
    intro h
    have hpub := hphys.publishable
    simp [shouldPublish, h] at hpub
  have hcon : a.onConnected p event = a := if_neg hm
  rw [processEvent_published hphys.publishable, hcon]
  have hstep := publishOrBuffer_physical (ready_numbered (ready_applied hr event) event)
    { event with sequenceId := a.nextSequenceId } hphys.source hphys.kept
  have hbase : ((a.applied event).numbered event).refusals = a.refusals :=
    numbered_refusals _ event
  exact ⟨fun h => hbase ▸ hstep.room h, fun h => hbase ▸ hstep.full h⟩

end Step

/-! ## Runs -/

/-- The application after processing these events. -/
def process (p : Platform) (a : Application) (events : List Event) : Application :=
  a.run p (events.map .processEvent)

theorem process_append (p : Platform) (a : Application) (events events' : List Event) :
    a.process p (events ++ events') = (a.process p events).process p events' := by
  simp [process, run]

theorem process_ready {p : Platform} {capacity : Nat} {mutex : Bool} {a : Application}
    (hr : Ready p capacity mutex a) (events : List Event) :
    Ready p capacity mutex (a.process p events) := (run_ready hr _).1

/-- What was refused stays refused. -/
theorem process_refusals {p : Platform} {capacity : Nat} {mutex : Bool} {a : Application}
    (hr : Ready p capacity mutex a) (events : List Event) :
    a.refusals <+: (a.process p events).refusals := by
  induction events generalizing a with
  | nil => exact List.prefix_refl _
  | cons event events ih =>
    have hstep := (processEvent_processed hr event).ready
    refine List.IsPrefix.trans ?_ (ih hstep)
    show a.refusals <+: (a.processEvent p event).refusals
    rcases processEvent_refusals hr event with h | ⟨_, _, h⟩
    · exact ⟨[], by rw [h, List.append_nil]⟩
    · exact ⟨[_], h.symm⟩

/-- The event `event`, as numbered in state `a`, is accepted or waits once
`processEvent` returns. -/
def Kept (p : Platform) (a : Application) (event : Event) : Prop :=
  { event with sequenceId := a.nextSequenceId } ∈ (a.processEvent p event).accepted ∨
    { event with sequenceId := a.nextSequenceId } ∈ (a.processEvent p event).offlineStore.events

end Application

namespace Application

theorem mem_refusals {a : Application} {event : Event} :
    event ∈ a.refusals ↔ ∃ held, .bufferFull event held ∈ a.trace := by
  constructor
  · intro h
    obtain ⟨o, ho, hev⟩ := List.mem_filterMap.mp h
    cases o <;> cases hev
    exact ⟨_, ho⟩
  · rintro ⟨held, h⟩
    exact List.mem_filterMap.mpr ⟨_, h, rfl⟩

/-- Every refusal of a run happened at one of its events, which was
publishable and no heartbeat. -/
theorem process_refused {p : Platform} {capacity : Nat} {mutex : Bool} {a : Application}
    (hr : Ready p capacity mutex a) (events : List Event) {e : Event}
    (he : e ∈ (a.process p events).refusals) :
    e ∈ a.refusals ∨ ∃ before event after, events = before ++ event :: after ∧
      shouldPublish event = true ∧ event.type ≠ .heartbeat ∧ e.sourceId = event.sourceId ∧
      ((a.process p before).processEvent p event).refusals =
        (a.process p before).refusals ++ [e] := by
  induction events generalizing a with
  | nil => exact .inl he
  | cons event events ih =>
    rcases ih (processEvent_processed hr event).ready he with h | ⟨before, ev, after, rfl, h⟩
    · rcases processEvent_refusals hr event with hsame | ⟨hpub, ht, hnew⟩
      · rw [hsame] at h
        exact .inl h
      · rw [hnew, List.mem_append, List.mem_singleton] at h
        rcases h with h | rfl
        · exact .inl h
        · exact .inr ⟨[], event, events, rfl, hpub, ht, rfl, hnew⟩
    · exact .inr ⟨event :: before, ev, after, rfl, h⟩

end Application

open Application in
/-- A run refuses system events only, and keeps every physical event, exactly
when each physical event of it finds room, whether or not the store has got
its mutex. -/
theorem full_buffer_only_system (p : Platform) (mutex : Bool) (led : LedDriver)
    (events : List Event) :
    let boot := boot (OfflineEventStore.create OFFLINE_EVENT_QUEUE_SIZE mutex) led
    ((∀ e held, .bufferFull e held ∈ (boot.process p events).trace → e.sourceId = 0) ∧
      ∀ before event after, events = before ++ event :: after → event.Physical →
        Kept p (boot.process p before) event) ↔
    ∀ before event after, events = before ++ event :: after → event.Physical →
      RoomFor p (boot.process p before)
        { event with sequenceId := (boot.process p before).nextSequenceId } := by
  intro boot
  have hr : Ready p OFFLINE_EVENT_QUEUE_SIZE mutex boot := boot_ready p _ mutex led
  constructor
  · rintro ⟨honly, _⟩ before event after rfl hphys
    have hpre := process_ready hr before
    by_contra hno
    -- the refusal of this step is still in the trace at the end
    have hnew := (processEvent_physical hpre hphys).full hno
    have hin : { event with sequenceId := (boot.process p before).nextSequenceId } ∈
        (boot.process p (before ++ event :: after)).refusals := by
      rw [process_append]
      refine (process_refusals (processEvent_processed hpre event).ready after).subset ?_
      rw [hnew]
      simp
    obtain ⟨held, hheld⟩ := mem_refusals.mp hin
    exact absurd (honly _ held hheld) hphys.source
  · intro hroom
    constructor
    · intro e held he
      by_contra hs
      rcases process_refused hr events (mem_refusals.mpr ⟨held, he⟩) with h |
        ⟨before, event, after, rfl, hpub, ht, hsrc, hnew⟩
      · cases h
      · have hphys : event.Physical := ⟨hsrc ▸ hs, hpub, ht⟩
        have hkept := (processEvent_physical (process_ready hr before) hphys).room
          (hroom before event after rfl hphys)
        rw [hkept.1] at hnew
        exact absurd hnew (by simp)
    · intro before event after hev hphys
      exact ((processEvent_physical (process_ready hr before) hphys).room
        (hroom before event after hev hphys)).2

/-- A fault report. -/
def faultReport : Event := { type := .faultDetected, value := 7 }

open Application in
/-- With 64 faults buffered during an outage, a button press is refused. -/
theorem full_buffer_refuses_press :
    ¬ ∀ e held, .bufferFull e held ∈
        ((boot (OfflineEventStore.create OFFLINE_EVENT_QUEUE_SIZE) {}).process Platform.offline
          (List.replicate 64 faultReport ++ [pressedButton])).trace → e.sourceId = 0 := by
  intro h
  have hin : { pressedButton with sequenceId := 65 } ∈
      ((boot (OfflineEventStore.create OFFLINE_EVENT_QUEUE_SIZE) {}).process Platform.offline
        (List.replicate 64 faultReport ++ [pressedButton])).refusals := by decide +kernel
  obtain ⟨held, hheld⟩ := mem_refusals.mp hin
  exact absurd (h _ held hheld) (by decide)

end KaizenStation.Firmware
