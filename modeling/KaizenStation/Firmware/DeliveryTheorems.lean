/-
KaizenStation.Firmware.DeliveryTheorems — order and accounting of the
numbered events, over every run of the central task from boot.

A run makes calls of `processEvent` and `flushOfflineEvents` in any order;
the platform answers every call of `isConnected()`, of the serializer and of
`publish()` as it likes. `run_keeps_order` is about the order of the numbers
MQTT accepted and of those that wait, `run_accounts` about the one place
where each number is. Both are read off the outbox (`Outbox.Sound`) and the
numbering (`InSequence`).
-/
import KaizenStation.Firmware.UnsentTheorems
import KaizenStation.Firmware.MessageSerializerTheorems

namespace KaizenStation.Firmware

open KaizenStation.Foundation

/-- A station that never reaches its broker. -/
def Platform.offline : Platform where
  config := defaultConfig
  cjson := CJson.reference
  env := fun _ => { connected := false, allocated := true, accepted := false }

/-- A station whose broker accepts everything. -/
def Platform.online : Platform where
  config := defaultConfig
  cjson := CJson.reference
  env := fun _ => { connected := true, allocated := true, accepted := true }

/-- The button driver's report of a press. -/
def pressedButton : Event := { type := .buttonPressed, sourceId := 1, value := 1 }

namespace Application

section Runs

variable {p : Platform} {capacity : Nat} {mutex : Bool}

/-- What a run from boot keeps. -/
structure Run (p : Platform) (capacity : Nat) (mutex : Bool) (calls : List Call)
    (a : Application) : Prop where
  ready : Ready p capacity mutex a
  sound : Outbox.Sound (outboxPolicy capacity mutex) (a.outbox [])
  sequence : a.InSequence
  count : a.issued.length = (calls.filterMap Call.published?).length
  explained : a.Explained p

theorem boot_run (p : Platform) (capacity : Nat) (mutex : Bool) (led : LedDriver)
    (calls : List Call) :
    Run p capacity mutex calls
      ((boot (OfflineEventStore.create capacity mutex) led).run p calls) := by
  have hr := boot_ready p capacity mutex led
  have hseq := boot_inSequence (OfflineEventStore.create capacity mutex) led
  have hsound : Outbox.Sound (outboxPolicy capacity mutex)
      ((boot (OfflineEventStore.create capacity mutex) led).outbox []) := Outbox.sound_empty
  obtain ⟨hready, hsteps⟩ := run_ready hr calls
  obtain ⟨hseq', hcount⟩ := run_inSequence hr hseq calls
  exact ⟨hready, hsound.steps hsteps, hseq', hcount.trans (Nat.zero_add _),
    run_explained hr (by simp [Explained, boot]) calls⟩

/-! ## Order -/

/-- Accepted first, then waiting, the events stand in the order of their
numbers. -/
theorem Run.ordered {calls : List Call} {a : Application} (h : Run p capacity mutex calls a)
    (hcount : (calls.filterMap Call.published?).length < 2 ^ 32) :
    (a.accepted ++ a.offlineStore.events).Pairwise (fun x y => x.sequenceId < y.sequenceId) := by
  have hinc := h.sequence.increasing (h.count ▸ hcount)
  have hsub : (a.accepted ++ a.offlineStore.events ++ []).Sublist a.issued := h.sound.inOrder
  rw [List.append_nil] at hsub
  exact hinc.sublist hsub

/-- A waiting event's number was assigned, so it lies below the counter
while the counter has not gone round. -/
theorem Run.below_next {calls : List Call} {a : Application} (h : Run p capacity mutex calls a)
    (hcount : (calls.filterMap Call.published?).length < 2 ^ 32 - 1) :
    ∀ e ∈ a.offlineStore.events, e.sequenceId < a.nextSequenceId := by
  intro e he
  have hsub : (a.accepted ++ a.offlineStore.events ++ []).Sublist a.issued := h.sound.inOrder
  have hmem : e ∈ a.issued := hsub.subset (by simp [he])
  have hid : e.sequenceId ∈ a.issued.map Event.sequenceId := List.mem_map_of_mem hmem
  rw [h.sequence.numbers] at hid
  obtain ⟨k, hk, hke⟩ := List.mem_map.mp hid
  have hk := List.mem_range'_1.mp hk
  have hlen := h.count
  rw [← hke, h.sequence.next, UInt32.lt_iff_toNat_lt, UInt32.toNat_ofNat', UInt32.toNat_ofNat',
    Nat.mod_eq_of_lt (by omega), Nat.mod_eq_of_lt (by omega)]
  omega

end Runs

end Application

open Application in
/-- Over every run with fewer than 2^32 numbered events: MQTT accepts in the
order of the numbers, the store waits in that order, and everything that
waits is newer than everything accepted and older than the next number. The
counter itself goes round to 0 with the last of these numbers. -/
theorem run_keeps_order (p : Platform) (capacity : Nat) (mutex : Bool) (led : LedDriver)
    (calls : List Call) (hcount : (calls.filterMap Call.published?).length < 2 ^ 32) :
    let a := (boot (OfflineEventStore.create capacity mutex) led).run p calls
    (a.accepted.map Event.sequenceId).Pairwise (· < ·) ∧
    (a.offlineStore.events.map Event.sequenceId).Pairwise (· < ·) ∧
    (∀ x ∈ a.accepted, ∀ y ∈ a.offlineStore.events, x.sequenceId < y.sequenceId) ∧
    ((∀ y ∈ a.offlineStore.events, y.sequenceId < a.nextSequenceId) ∨
      ((calls.filterMap Call.published?).length = 2 ^ 32 - 1 ∧ a.nextSequenceId = 0)) := by
  intro a
  have h := boot_run p capacity mutex led calls
  obtain ⟨hacc, hbuf, hcross⟩ := List.pairwise_append.mp (h.ordered hcount)
  refine ⟨List.pairwise_map.mpr hacc, List.pairwise_map.mpr hbuf, hcross, ?_⟩
  by_cases hlast : (calls.filterMap Call.published?).length < 2 ^ 32 - 1
  · exact .inl (h.below_next hlast)
  · have hfull : (calls.filterMap Call.published?).length = 2 ^ 32 - 1 := by omega
    refine .inr ⟨hfull, ?_⟩
    show (Application.run p _ calls).nextSequenceId = 0
    rw [h.sequence.next, h.count, hfull]
    rfl

open Application in
/-- A toggle moves twice and the button is pressed, with no broker. -/
theorem run_keeps_order_outage :
    let a := (boot (OfflineEventStore.create 64) {}).run Platform.offline
      [.processEvent { type := .toggleChanged, sourceId := 2, value := 1 },
       .processEvent { type := .buttonPressed, sourceId := 1, value := 1 },
       .flushOfflineEvents,
       .processEvent { type := .toggleChanged, sourceId := 2, value := 0 }]
    (a.offlineStore.events.map Event.sequenceId).Pairwise (· < ·) := by
  intro a
  exact (run_keeps_order Platform.offline 64 true {}
    [.processEvent { type := .toggleChanged, sourceId := 2, value := 1 },
     .processEvent { type := .buttonPressed, sourceId := 1, value := 1 },
     .flushOfflineEvents,
     .processEvent { type := .toggleChanged, sourceId := 2, value := 0 }] (by decide)).2.1

/-! ### The counter goes round

Without a broker every published event ends in the store, so the store is
not empty when the number 2^32 - 1 has been given out. -/

namespace Application

variable {p : Platform}

theorem flushIfPending_offline (hoff : ∀ k, (p.env k).connected = false) (a : Application) :
    (a.flushIfPending p).offlineStore = a.offlineStore := by
  unfold flushIfPending
  split
  · simp [flushOfflineEvents, isConnected, hoff, called]
  · rfl

theorem publishDirect_offline (hoff : ∀ k, (p.env k).connected = false) (a : Application)
    (event : Event) :
    (a.publishDirect p event).2 = false ∧
      (a.publishDirect p event).1.offlineStore = a.offlineStore := by
  cases hempty : a.offlineStore.empty with
  | false => simp [publishDirect, hempty]
  | true => simp [publishDirect, hempty, isConnected, hoff, called]

theorem publishOrBuffer_offline (hoff : ∀ k, (p.env k).connected = false) (event : Event)
    (ht : event.type ≠ .heartbeat) (a : Application) :
    (a.publishOrBuffer p event).offlineStore = (a.offlineStore.push event).1 := by
  obtain ⟨hsent, hstore⟩ := publishDirect_offline hoff (a.flushIfPending p) event
  have hf := flushIfPending_offline hoff a
  have hb : a.publishOrBuffer p event =
      ((a.flushIfPending p).publishDirect p event).1.bufferEvent event := by
    simp [publishOrBuffer, hsent]
  rw [hb, ← hf, ← hstore]
  simp [bufferEvent, ht]

theorem processEvent_offline (hoff : ∀ k, (p.env k).connected = false) {event : Event}
    (hpub : shouldPublish event = true) (ht : event.type ≠ .heartbeat) (a : Application) :
    (a.processEvent p event).offlineStore =
      (a.offlineStore.push { event with sequenceId := a.nextSequenceId }).1 := by
  have hm : event.type ≠ .mqttConnected := by
    intro h
    simp [shouldPublish, h] at hpub
  have hcon : a.onConnected p event = a := if_neg hm
  rw [processEvent_published hpub, hcon]
  exact publishOrBuffer_offline hoff { event with sequenceId := a.nextSequenceId } ht _

/-- A push into a store with room for anything leaves something in it. -/
theorem push_nonempty {s : OfflineEventStore} (hs : s.WellFormed) (hm : s.mutex = true)
    (hcap : 0 < s.capacity) (event : Event) : (s.push event).1.events ≠ [] := by
  rcases OfflineEventStore.push_cases hs hm event with ⟨_, _, he⟩ | ⟨hlen, _, he⟩
  · rw [he]
    exact List.append_ne_nil_of_right_ne_nil _ (List.cons_ne_nil _ _)
  · rw [he]
    intro hnil
    rw [hnil, List.length_nil] at hlen
    omega

theorem run_replicate_succ (a : Application) (call : Call) (n : Nat) :
    a.run p (List.replicate (n + 1) call) = (a.run p (List.replicate n call)).call p call := by
  rw [List.replicate_succ', run, List.foldl_append]
  rfl

/-- After any positive number of published events the store of an offline
station holds something. -/
theorem offline_run_nonempty (event : Event) (hpub : shouldPublish event = true)
    (ht : event.type ≠ .heartbeat) (n : Nat) :
    ((boot (OfflineEventStore.create 64) {}).run Platform.offline
      (List.replicate (n + 1) (.processEvent event))).offlineStore.events ≠ [] := by
  have h := boot_run Platform.offline 64 true {} (List.replicate n (.processEvent event))
  rw [run_replicate_succ]
  show (Application.processEvent Platform.offline _ event).offlineStore.events ≠ []
  rw [processEvent_offline (fun _ => rfl) hpub ht]
  refine push_nonempty h.ready.wellFormed h.ready.lock ?_ _
  rw [h.ready.bound]
  decide

theorem published_replicate {event : Event} (hpub : shouldPublish event = true) (n : Nat) :
    ((List.replicate n (Call.processEvent event)).filterMap Call.published?).length = n := by
  induction n with
  | zero => rfl
  | succ n ih =>
    have hone : Call.published? (.processEvent event) = some event := by
      simp [Call.published?, hpub]
    rw [List.replicate_succ, List.filterMap_cons_some hone, List.length_cons, ih]

/-- When the count of published events reaches 2^32 - 1, something still
waits and the counter reads 0. -/
theorem offline_run_wraps (event : Event) (hpub : shouldPublish event = true)
    (ht : event.type ≠ .heartbeat) {count : Nat} (hcount : count + 1 = 2 ^ 32) :
    let a := (boot (OfflineEventStore.create 64) {}).run Platform.offline
      (List.replicate count (.processEvent event))
    a.offlineStore.events ≠ [] ∧ a.nextSequenceId = 0 := by
  intro a
  have h := boot_run Platform.offline 64 true {} (List.replicate count (.processEvent event))
  obtain ⟨n, rfl⟩ : ∃ n, count = n + 1 := ⟨count - 1, by omega⟩
  refine ⟨offline_run_nonempty event hpub ht n, ?_⟩
  have hnext := h.sequence.next
  rw [h.count, published_replicate hpub, hcount] at hnext
  exact hnext

end Application

/-- The toggle driver's report of the position "on". -/
def toggledOn : Event := { type := .toggleChanged, sourceId := 2, value := 1 }

open Application in
/-- With 2^32 - 1 events numbered, the newest waiting event has the number
2^32 - 1 and the counter reads 0. -/
theorem buffered_not_below_next :
    ((List.replicate (2 ^ 32 - 1) (Call.processEvent toggledOn)).filterMap
      Call.published?).length < 2 ^ 32 ∧
    ¬ ∀ y ∈ ((boot (OfflineEventStore.create 64) {}).run Platform.offline
          (List.replicate (2 ^ 32 - 1) (.processEvent toggledOn))).offlineStore.events,
        y.sequenceId < ((boot (OfflineEventStore.create 64) {}).run Platform.offline
          (List.replicate (2 ^ 32 - 1) (.processEvent toggledOn))).nextSequenceId := by
  have hcount : 2 ^ 32 - 1 + 1 = 2 ^ 32 := by omega
  obtain ⟨hne, hnext⟩ := offline_run_wraps toggledOn rfl (by decide) hcount
  constructor
  · rw [published_replicate rfl]
    omega
  · intro hbelow
    obtain ⟨y, hy⟩ := List.exists_mem_of_ne_nil _ hne
    have hlt := hbelow y hy
    rw [hnext, UInt32.lt_iff_toNat_lt] at hlt
    exact absurd hlt (Nat.not_lt_zero _)

/-! ## Accounting -/

namespace Application

/-- Every place where an event with this number is: accepted, waiting, or
lost for a reason. -/
def fates (a : Application) (id : UInt32) : List (Outbox.Place Event) :=
  (a.outbox []).places Event.sequenceId id

/-- What the source promises of an event with this fate. A heartbeat is
discarded, and a waiting event dropped, for what the calls made for it
answered. -/
def Legitimate (p : Platform) (capacity : Nat) (a : Application) (event : Event) :
    Outbox.Place Event → Prop
  | .delivered => event ∈ a.accepted
  | .pending => event ∈ a.offlineStore.events
  | .inHand => False
  | .lost (.superseded newer) =>
    newer ∈ a.issued ∧ event.sequenceId < newer.sequenceId ∧
      newer.sourceId = event.sourceId ∧ event.sourceId ≠ 0
  | .lost .discarded => event.type = .heartbeat ∧
    ∃ since held calls, .assigned event since ∈ a.trace ∧
      .heartbeatDiscarded event held calls ∈ a.trace ∧ p.Unsent event since held calls
  | .lost (.rejected held) =>
    capacity ≤ held.length ∧ (event.sourceId = 0 ∨ ∀ b ∈ held, b.sourceId ≠ event.sourceId)
  | .lost .dropped =>
    ∃ call, .unserializable event call ∈ a.trace ∧ (p.payload call event).isEmpty = true

theorem unserializable_of_dropped {a : Application} {event : Event}
    (h : (event, .dropped) ∈ a.losses) : ∃ call, .unserializable event call ∈ a.trace := by
  obtain ⟨o, ho, hlost⟩ := List.mem_filterMap.mp h
  cases o <;> cases hlost
  exact ⟨_, ho⟩

theorem heartbeatDiscarded_of_discarded {a : Application} {event : Event}
    (h : (event, .discarded) ∈ a.losses) :
    ∃ held calls, .heartbeatDiscarded event held calls ∈ a.trace := by
  obtain ⟨o, ho, hlost⟩ := List.mem_filterMap.mp h
  cases o <;> cases hlost
  exact ⟨_, _, ho⟩

section Runs

variable {p : Platform} {capacity : Nat}

/-- Being at a place makes the place legitimate. -/
theorem Run.legitimate {calls : List Call} {a : Application} (h : Run p capacity true calls a)
    (hcount : (calls.filterMap Call.published?).length < 2 ^ 32) {event : Event}
    {place : Outbox.Place Event} (hat : (a.outbox []).At event place) :
    Legitimate p capacity a event place := by
  cases place with
  | delivered => exact hat
  | pending => exact hat
  | inHand => cases hat
  | lost why =>
    have hj := h.sound.justified _ hat
    cases why with
    | superseded newer =>
      obtain ⟨hkey, hsub⟩ := hj
      obtain ⟨hsource, hne⟩ := sameKey_iff.mp hkey
      have hlt := (h.sequence.increasing (h.count ▸ hcount)).sublist hsub
      exact ⟨hsub.subset (by simp), (List.pairwise_cons.mp hlt).1 newer (by simp), hsource.symm,
        hsource ▸ hne⟩
    | discarded =>
      obtain ⟨held, calls, hmem⟩ := heartbeatDiscarded_of_discarded hat
      obtain ⟨ht, since, hassigned, hunsent⟩ := h.explained event held calls hmem
      exact ⟨ht, since, held, calls, hassigned, hmem, hunsent⟩
    | rejected held =>
      obtain ⟨hfull, hnone, -⟩ := hj rfl
      refine ⟨hfull, ?_⟩
      by_cases hs : event.sourceId = 0
      · exact .inl hs
      · exact .inr fun b hb hbs => hnone b hb (sameKey_iff.mpr ⟨hbs, hs⟩)
    | dropped =>
      obtain ⟨call, hmem⟩ := unserializable_of_dropped hat
      exact ⟨call, hmem, h.ready.honest _ hmem⟩

theorem InSequence.nodup {a : Application} (hs : a.InSequence)
    (hlen : a.issued.length < 2 ^ 32) : (a.issued.map Event.sequenceId).Nodup := by
  have hlt := hs.increasing hlen
  refine List.pairwise_map.mpr (hlt.imp ?_)
  intro x y hxy heq
  rw [heq] at hxy
  exact absurd hxy (UInt32.lt_irrefl _)

theorem InSequence.mem_numbers {a : Application} (hs : a.InSequence)
    (hlen : a.issued.length < 2 ^ 32) {id : UInt32} :
    id ∈ a.issued.map Event.sequenceId ↔ 1 ≤ id.toNat ∧ id.toNat ≤ a.issued.length := by
  rw [hs.numbers, List.mem_map]
  constructor
  · rintro ⟨k, hk, rfl⟩
    have hk := List.mem_range'_1.mp hk
    rw [UInt32.toNat_ofNat', Nat.mod_eq_of_lt (by omega)]
    omega
  · intro hid
    exact ⟨id.toNat, List.mem_range'_1.mpr (by omega), UInt32.ofNat_toNat⟩

/-- Only publishable events are numbered. -/
theorem run_issued_publishable {a : Application} {mutex : Bool} (hr : Ready p capacity mutex a)
    (ha : ∀ e ∈ a.issued, shouldPublish e = true) (calls : List Call) :
    ∀ e ∈ (a.run p calls).issued, shouldPublish e = true := by
  induction calls generalizing a with
  | nil => exact ha
  | cons call calls ih =>
    obtain ⟨hready, -, hissued, -⟩ := call_advances hr call
    refine ih hready fun e he => ?_
    rw [hissued, List.mem_append] at he
    rcases he with he | he
    · exact ha e he
    · obtain ⟨event, hev, rfl⟩ := Option.map_eq_some_iff.mp (Option.mem_toList.mp he)
      cases call with
      | processEvent event' =>
        simp only [Call.published?] at hev
        split at hev
        · next hp =>
          cases hev
          exact hp
        · cases hev
      | flushOfflineEvents => cases hev

end Runs

end Application

open Application in
/-- Over every run with a working mutex and fewer than 2^32 numbers: each
number given out is at exactly one place, which is legitimate, and no other
number is anywhere. What waits is publishable and no heartbeat. -/
theorem run_accounts (p : Platform) (capacity : Nat) (led : LedDriver) (calls : List Call)
    (hcount : (calls.filterMap Call.published?).length < 2 ^ 32) :
    let a := (boot (OfflineEventStore.create capacity) led).run p calls
    (∀ id : UInt32, 1 ≤ id.toNat → id.toNat ≤ (calls.filterMap Call.published?).length →
      ∃ event ∈ a.issued, event.sequenceId = id ∧
        ∃ fate, a.fates id = [fate] ∧ Legitimate p capacity a event fate) ∧
    (∀ id : UInt32, id = 0 ∨ (calls.filterMap Call.published?).length < id.toNat →
      a.fates id = []) ∧
    (∀ e ∈ a.offlineStore.events, e.type ≠ .heartbeat ∧ shouldPublish e = true) := by
  intro a
  have h : Run p capacity true calls a := boot_run p capacity true led calls
  have hlen : a.issued.length < 2 ^ 32 := h.count ▸ hcount
  refine ⟨?_, ?_, ?_⟩
  · intro id hlo hhi
    have hid := (h.sequence.mem_numbers hlen).mpr ⟨hlo, h.count ▸ hhi⟩
    obtain ⟨event, hev, rfl⟩ := List.mem_map.mp hid
    obtain ⟨fate, hfate, hat⟩ := h.sound.one_place (h.sequence.nodup hlen) hev
    exact ⟨event, hev, rfl, fate, hfate, h.legitimate hcount hat⟩
  · intro id hid
    refine h.sound.no_place fun hmem => ?_
    have := (h.sequence.mem_numbers hlen).mp hmem
    rw [h.count] at this
    rcases hid with rfl | hid
    · exact absurd this.1 (by decide)
    · omega
  · intro e he
    have hpub := run_issued_publishable (boot_ready p capacity true led) (by simp [boot, issued])
      calls
    have hmem : e ∈ a.issued := h.sound.inOrder.subset
      (List.mem_append_left _ (List.mem_append_right _ he))
    exact ⟨of_decide_eq_false (h.sound.stored e he), hpub e hmem⟩

open Application in
/-- One slot, three events: with the broker away the older toggle is
superseded and a fault finds the store full. -/
theorem run_accounts_outage :
    let a := (boot (OfflineEventStore.create 1) {}).run Platform.offline
      [.processEvent toggledOn, .processEvent toggledOn,
       .processEvent { type := .faultDetected, value := 3 }]
    (∃ event ∈ a.issued, event.sequenceId = 3 ∧
      ∃ fate, a.fates 3 = [fate] ∧ Legitimate Platform.offline 1 a event fate) := by
  intro a
  exact (run_accounts Platform.offline 1 {}
    [.processEvent toggledOn, .processEvent toggledOn,
     .processEvent { type := .faultDetected, value := 3 }] (by decide)).1 3 (by decide) (by decide)

end KaizenStation.Firmware
