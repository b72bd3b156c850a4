/-
KaizenStation.Firmware.FlushTheorems — one flush of the offline buffer.

Every turn of the loop in `flushOfflineEvents` either removes the head, which
was accepted or had no payload, or stops at a head that was refused. So a
flush cuts the buffer in two: the events it settled, in their order, and the
rest, which is empty or starts with the one that was refused. It makes at
most two calls for each event (`flush_settles_front`).
-/
import KaizenStation.Firmware.IndependenceTheorems
import KaizenStation.Firmware.RecoveryTheorems

namespace KaizenStation.Firmware

/-- An event that a flush removed, the call that serialized it and the payload
it had. -/
structure Settled where
  event : Event
  call : Nat
  payload : String

namespace Settled

def sent (s : Settled) : Bool := !s.payload.isEmpty

/-- The one trace it left: accepted, or dropped for want of a payload. -/
def obs (s : Settled) : Obs :=
  if s.payload.isEmpty then .unserializable s.event s.call
  else .publish s.event s.payload true

theorem obs_attempt (s : Settled) :
    s.obs.attempt? = if s.sent then some (s.event, true) else none := by
  unfold obs sent
  cases s.payload.isEmpty <;> rfl

theorem filterMap_obs (settled : List Settled) :
    (settled.map obs).filterMap Obs.attempt? =
      (settled.filter sent).map fun s => (s.event, true) := by
  induction settled with
  | nil => rfl
  | cons s settled ih =>
    rw [List.map_cons, List.filterMap_cons, obs_attempt, ih]
    cases h : s.sent <;> simp [h]

end Settled

/-- Why a flush ended: nothing is left, or the head has a payload that MQTT
refused. -/
inductive FlushEnd (p : Platform) : List Event → List Obs → Prop where
  | drained : FlushEnd p [] []
  | refused (k : Nat) (head : Event) (rest : List Event) :
      (p.payload k head).isEmpty = false →
      FlushEnd p (head :: rest) [.publish head (p.payload k head) false]

theorem FlushEnd.attempts {p : Platform} {kept : List Event} {last : List Obs}
    (h : FlushEnd p kept last) :
    last.filterMap Obs.attempt? = kept.head?.toList.map (·, false) := by
  cases h <;> rfl

namespace Application

/-- From `a` to `a'` the events of `settled` were removed from the front of
the buffer and `kept` stayed; nothing else was offered but the head of
`kept`, as `last` says. -/
structure Flushed (p : Platform) (a : Application) (settled : List Settled) (kept : List Event)
    (last : List Obs) (a' : Application) : Prop where
  buffer : a.offlineStore.events = settled.map Settled.event ++ kept
  store : a'.offlineStore = { a.offlineStore with events := kept }
  payloads : ∀ s ∈ settled, a.calls ≤ s.call ∧ s.call < a'.calls ∧
    s.payload = p.payload s.call s.event
  trace : a'.trace = a.trace ++ settled.map Settled.obs ++ last
  ended : FlushEnd p kept last

section Flush

variable {p : Platform}

theorem popHead_store {a : Application} {event : Event}
    (h : a.offlineStore.peek = some event) :
    a.popHead.offlineStore =
      { a.offlineStore with events := a.popHead.offlineStore.events } := by
  obtain ⟨hm, rest, hrest⟩ := peek_eq_some h
  simp [popHead, OfflineEventStore.pop_cons hm hrest]

/-- A turn that goes on settles the head. -/
theorem flushOne_settled {a : Application} {event : Event} (h : a.offlineStore.peek = some event)
    (hgo : (a.flushOne p event).2 = true) :
    (a.flushOne p event).1.offlineStore =
        { a.offlineStore with events := (a.flushOne p event).1.offlineStore.events } ∧
      (a.flushOne p event).1.trace =
        a.trace ++ [Settled.obs ⟨event, a.calls, p.payload a.calls event⟩] := by
  have hpayload : a.payloadOf p event = p.payload a.calls event := rfl
  rcases flushOne_cases p a event with ⟨hp, he⟩ | ⟨_, _, he⟩ | ⟨hp, _, he⟩ <;> rw [he] at hgo ⊢
  · rw [hpayload] at hp
    refine ⟨popHead_store h, ?_⟩
    simp [Settled.obs, hp, observe, called, popHead]
  · cases hgo
  · rw [hpayload] at hp
    refine ⟨popHead_store h, ?_⟩
    simp [Settled.obs, hp, hpayload, observe, called, popHead]

/-- The other turn offers the head in vain and changes nothing. -/
theorem flushOne_stopped {a : Application} {event : Event}
    (hgo : ¬ (a.flushOne p event).2 = true) :
    (p.payload a.calls event).isEmpty = false ∧
      (a.flushOne p event).1.offlineStore = a.offlineStore ∧
      (a.flushOne p event).1.trace =
        a.trace ++ [.publish event (p.payload a.calls event) false] := by
  rcases flushOne_cases p a event with ⟨_, he⟩ | ⟨hp, _, he⟩ | ⟨_, _, he⟩ <;> rw [he] at hgo ⊢
  · exact absurd rfl hgo
  · exact ⟨hp, rfl, rfl⟩
  · exact absurd rfl hgo

theorem Flushed.cons {a b a' : Application} {event : Event} {settled : List Settled}
    {kept : List Event} {last : List Obs} (h : Flushed p b settled kept last a')
    (hbuffer : a.offlineStore.events = event :: b.offlineStore.events)
    (hstore : b.offlineStore = { a.offlineStore with events := b.offlineStore.events })
    (htrace : b.trace =
      a.trace ++ [Settled.obs ⟨event, a.calls, p.payload a.calls event⟩])
    (hcalls : a.calls < b.calls) (hcalls' : b.calls ≤ a'.calls) :
    Flushed p a (⟨event, a.calls, p.payload a.calls event⟩ :: settled) kept last a' where
  buffer := by rw [hbuffer, h.buffer]; rfl
  store := by rw [h.store, hstore]
  payloads := by
    intro s hs
    rcases List.mem_cons.mp hs with rfl | hs
    · exact ⟨Nat.le_refl _, Nat.lt_of_lt_of_le hcalls hcalls', rfl⟩
    · obtain ⟨hcall, hcall', hpayload⟩ := h.payloads s hs
      exact ⟨Nat.le_trans (Nat.le_of_lt hcalls) hcall, hcall', hpayload⟩
  trace := by rw [h.trace, htrace]; simp
  ended := h.ended

/-- The loop cuts the buffer in two. -/
theorem flushLoop_flushed {a : Application}
    (hmutex : a.offlineStore.mutex = false → a.offlineStore.events = []) :
    ∃ settled kept last, Flushed p a settled kept last (a.flushLoop p) := by
  fun_induction flushLoop p a with
  | case1 a h =>
    have hnil := events_nil_of_peek hmutex h
    refine ⟨[], [], [], ⟨by simpa using hnil, ?_, by simp, by simp, .drained⟩⟩
    rw [← hnil]
  | case2 a event h hgo ih =>
    obtain ⟨hstore, htrace⟩ := flushOne_settled h hgo
    have hm := (peek_eq_some h).1
    have hmutex' : (a.flushOne p event).1.offlineStore.mutex = false →
        (a.flushOne p event).1.offlineStore.events = [] := by
      intro hfalse
      rw [hstore] at hfalse
      exact absurd (hm.symm.trans hfalse) (by simp)
    obtain ⟨settled, kept, last, hrest⟩ := ih hmutex'
    exact ⟨_, kept, last, hrest.cons (flushOne_shortens p h hgo) hstore htrace
      (flushOne_calls a event) (flushLoop_calls _)⟩
  | case3 a event h hgo =>
    obtain ⟨hpayload, hstore, htrace⟩ := flushOne_stopped hgo
    obtain ⟨-, rest, hrest⟩ := peek_eq_some h
    refine ⟨[], event :: rest, [.publish event (p.payload a.calls event) false],
      ⟨by simpa using hrest, ?_, by simp, by simpa using htrace, .refused _ _ _ hpayload⟩⟩
    rw [hstore, ← hrest]

/-- A turn makes at most two calls. -/
theorem flushOne_calls_le (a : Application) (event : Event) :
    (a.flushOne p event).1.calls ≤ a.calls + 2 := by
  rcases flushOne_cases p a event with ⟨_, he⟩ | ⟨_, _, he⟩ | ⟨_, _, he⟩ <;> rw [he] <;>
    simp [called, observe, popHead]

theorem flushLoop_calls_le (a : Application) :
    (a.flushLoop p).calls ≤ a.calls + 2 * a.offlineStore.events.length := by
  fun_induction flushLoop p a with
  | case1 a h => omega
  | case2 a event h hgo ih =>
    have hone := flushOne_calls_le (p := p) a event
    have hlen := congrArg List.length (flushOne_shortens p h hgo)
    rw [List.length_cons] at hlen
    omega
  | case3 a event h hgo =>
    have hone := flushOne_calls_le (p := p) a event
    obtain ⟨-, rest, hrest⟩ := peek_eq_some h
    rw [hrest, List.length_cons]
    omega

/-- What MQTT was offered by a flush. -/
theorem Flushed.attempts {a a' : Application} {settled : List Settled} {kept : List Event}
    {last : List Obs} (h : Flushed p a settled kept last a') :
    a'.attempts = a.attempts ++ (settled.filter Settled.sent).map (fun s => (s.event, true)) ++
      kept.head?.toList.map (·, false) := by
  unfold Application.attempts
  rw [h.trace, List.filterMap_append, List.filterMap_append, Settled.filterMap_obs,
    h.ended.attempts]

end Flush

/-- A flush ends, whatever is buffered and whatever it is answered. Without a
connection it changes nothing. Otherwise it settles a prefix of the buffer,
each event of it by one acceptance or for want of a payload, and stops at an
event that was refused or at the end. The numbering and the count of erased
events stay as they were. -/
theorem flush_settles_front (p : Platform) (a : Application)
    (hmutex : a.offlineStore.mutex = false → a.offlineStore.events = []) :
    let a' := a.flushOfflineEvents p
    a'.calls ≤ a.calls + 1 + 2 * a.offlineStore.events.length ∧
    ((p.env a.calls).connected = false → a' = a.called) ∧
    ((p.env a.calls).connected = true → ∃ settled kept last,
      Flushed p a settled kept last a' ∧
      a'.attempts = a.attempts ++ (settled.filter Settled.sent).map (fun s => (s.event, true)) ++
        kept.head?.toList.map (·, false)) ∧
    a'.nextSequenceId = a.nextSequenceId ∧
    a'.offlineStore.coalescedCount = a.offlineStore.coalescedCount := by
  intro a'
  have hlocal : a'.localPart = a.localPart := flushOfflineEvents_localPart p a
  have hnext : a'.nextSequenceId = a.nextSequenceId := congrArg LocalPart.nextSequenceId hlocal
  cases hcon : (p.env a.calls).connected with
  | false =>
    have he : a' = a.called := by
      simp [a', flushOfflineEvents, isConnected, hcon]
    refine ⟨?_, fun _ => he, fun h => (by cases h), hnext, ?_⟩
    · rw [he, called]
      simp
    · rw [he]
      rfl
  | true =>
    have he : a' = a.called.flushLoop p := by
      simp [a', flushOfflineEvents, isConnected, hcon]
    obtain ⟨settled, kept, last, hloop⟩ := flushLoop_flushed (p := p) (a := a.called) hmutex
    rw [← he] at hloop
    have hflushed : Flushed p a settled kept last a' := by
      refine ⟨hloop.buffer, hloop.store, fun s hs => ?_, hloop.trace, hloop.ended⟩
      obtain ⟨hcall, hcall', hpayload⟩ := hloop.payloads s hs
      exact ⟨Nat.le_trans (Nat.le_succ _) hcall, hcall', hpayload⟩
    refine ⟨?_, fun h => (by cases h), fun _ => ⟨settled, kept, last, hflushed, hflushed.attempts⟩,
      hnext, ?_⟩
    · rw [he]
      exact flushLoop_calls_le a.called
    · rw [hflushed.store]
      rfl

/-- Three inputs wait. cJSON has no memory for the first, MQTT accepts the
second and refuses the third. -/
def threeWaiting : Application :=
  boot { capacity := 4,
         events := [{ type := .buttonPressed, sourceId := 1, value := 1, sequenceId := 11 },
                    { type := .encoderChanged, sourceId := 3, value := 42, sequenceId := 12 },
                    { type := .analogChanged, sourceId := 4, value := 60, sequenceId := 13 }] }

def memoryReturns : Platform where
  config := defaultConfig
  cjson := CJson.reference
  env := fun k => { connected := true, allocated := k ≠ 1, accepted := k < 4 }

theorem flush_settles_front_threeWaiting :
    ∃ settled kept last,
      Flushed memoryReturns threeWaiting settled kept last
        (threeWaiting.flushOfflineEvents memoryReturns) ∧
      (threeWaiting.flushOfflineEvents memoryReturns).attempts =
        threeWaiting.attempts ++ (settled.filter Settled.sent).map (fun s => (s.event, true)) ++
          kept.head?.toList.map (·, false) :=
  (flush_settles_front memoryReturns threeWaiting (fun h => by cases h)).2.2.1 rfl

end Application

end KaizenStation.Firmware
