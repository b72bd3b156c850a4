/-
KaizenStation.Firmware.UnsentTheorems — why a heartbeat was not sent.

A heartbeat that `publishOrBuffer` cannot send is discarded. The trace has how
many calls had been answered when it took its number and when it was
discarded, and what the store held. `Platform.Unsent` reads the reason off the
calls between the two, which were made for that heartbeat: MQTT was not
connected, an older event before it was refused, it had no payload, or it was
refused itself. In every run each discarded heartbeat has such a reason
(`run_explained`).
-/
import KaizenStation.Firmware.ApplicationTheorems

namespace KaizenStation.Firmware

/-- What the calls from `since` on answered when an event was not sent, after
`calls` calls and with these events still in the store. -/
inductive Platform.Unsent (p : Platform) (event : Event) (since : Nat) :
    List Event → Nat → Prop where
  /-- `isConnected()` answered false. -/
  | disconnected {held : List Event} {k : Nat} : since ≤ k → (p.env k).connected = false →
      Unsent p event since held (k + 1)
  /-- The flush before it stopped at an older event, which `publish()` refused. -/
  | behind {head : Event} {rest : List Event} {k : Nat} : since ≤ k →
      (p.payload k head).isEmpty = false → (p.env (k + 1)).accepted = false →
      Unsent p event since (head :: rest) (k + 2)
  /-- `serializeEvent` had no text for it. -/
  | unserializable {k : Nat} : since ≤ k → (p.env k).connected = true →
      (p.payload (k + 1) event).isEmpty = true → Unsent p event since [] (k + 2)
  /-- `publish()` refused it. -/
  | refused {k : Nat} : since ≤ k → (p.env k).connected = true →
      (p.payload (k + 1) event).isEmpty = false → (p.env (k + 2)).accepted = false →
      Unsent p event since [] (k + 3)

namespace Application

section Steps

variable {p : Platform} {capacity : Nat} {mutex : Bool} {a : Application} {event : Event}

/-! ## The record goes on -/

/-- What is new in the record of `a'` discards no heartbeat. -/
def Continues (a a' : Application) : Prop :=
  ∃ more, a'.trace = a.trace ++ more ∧
    ∀ event held calls, .heartbeatDiscarded event held calls ∉ more

theorem Continues.refl (a : Application) : Continues a a := ⟨[], by simp, by simp⟩

theorem Continues.trans {a b c : Application} (h : Continues a b) (h' : Continues b c) :
    Continues a c := by
  obtain ⟨more, htrace, hmore⟩ := h
  obtain ⟨more', htrace', hmore'⟩ := h'
  refine ⟨more ++ more', by rw [htrace', htrace, List.append_assoc], ?_⟩
  intro event held calls hmem
  rcases List.mem_append.mp hmem with hmem | hmem
  · exact hmore event held calls hmem
  · exact hmore' event held calls hmem

theorem Continues.mem {a a' : Application} (h : Continues a a') {o : Obs} (ho : o ∈ a.trace) :
    o ∈ a'.trace := by
  obtain ⟨more, htrace, -⟩ := h
  rw [htrace]
  exact List.mem_append_left more ho

theorem flushOne_continues (a : Application) (event : Event) :
    Continues a (a.flushOne p event).1 := by
  rcases flushOne_cases p a event with ⟨-, he⟩ | ⟨-, -, he⟩ | ⟨-, -, he⟩ <;> rw [he] <;>
    exact ⟨[_], rfl, by simp⟩

theorem flushLoop_continues (a : Application) : Continues a (a.flushLoop p) := by
  fun_induction flushLoop p a with
  | case1 a => exact Continues.refl a
  | case2 a event hpeek hgo ih => exact (flushOne_continues a event).trans ih
  | case3 a event hpeek hgo => exact flushOne_continues a event

theorem flushOfflineEvents_continues (a : Application) :
    Continues a (a.flushOfflineEvents p) := by
  unfold flushOfflineEvents isConnected
  cases (p.env a.calls).connected with
  | false => exact Continues.refl a
  | true => exact flushLoop_continues a.called

theorem flushIfPending_continues (a : Application) : Continues a (a.flushIfPending p) := by
  unfold flushIfPending
  split
  · exact flushOfflineEvents_continues a
  · exact Continues.refl a

theorem publishDirect_continues (a : Application) (event : Event) :
    Continues a (a.publishDirect p event).1 := by
  rcases publishDirect_cases p a event with he | he | he | ⟨-, -, he⟩ <;> rw [he]
  · exact Continues.refl a
  · exact Continues.refl a
  · exact Continues.refl a
  · exact ⟨[_], rfl, by simp⟩

theorem numbered_continues (a : Application) (event : Event) : Continues a (a.numbered event) :=
  ⟨[_], rfl, by simp⟩

/-! ## Not sent -/

theorem not_empty {s : OfflineEventStore} (h : s.empty = false) :
    ∃ head rest, s.peek = some head ∧ s.events = head :: rest := by
  cases hm : s.mutex with
  | false => simp [OfflineEventStore.empty, OfflineEventStore.lock, hm] at h
  | true =>
    rw [OfflineEventStore.empty_of_mutex hm] at h
    obtain ⟨head, rest, hev⟩ := List.exists_cons_of_ne_nil (List.isEmpty_eq_false_iff.mp h)
    exact ⟨head, rest, by rw [OfflineEventStore.peek_of_mutex hm, hev]; rfl, hev⟩

/-- A loop that leaves something in the store was stopped by the refusal of its
head. -/
theorem flushLoop_unsent (e : Event) {since : Nat} (hsince : since ≤ a.calls)
    (h : (a.flushLoop p).offlineStore.empty = false) :
    p.Unsent e since (a.flushLoop p).offlineStore.events (a.flushLoop p).calls := by
  fun_induction Application.flushLoop p a with
  | case1 a hpeek =>
    obtain ⟨head, rest, hhead, -⟩ := not_empty h
    rw [hhead] at hpeek
    cases hpeek
  | case2 a event hpeek hgo ih =>
    exact ih (Nat.le_trans hsince (Nat.le_of_lt (flushOne_calls a event))) h
  | case3 a event hpeek hgo =>
    rcases flushOne_cases p a event with ⟨-, he⟩ | ⟨hpayload, hrefused, he⟩ | ⟨-, -, he⟩
    · rw [he] at hgo
      exact absurd rfl hgo
    · rw [he]
      obtain ⟨-, rest, hev⟩ := peek_eq_some hpeek
      show p.Unsent e since a.offlineStore.events (a.calls + 2)
      rw [hev]
      exact .behind hsince hpayload hrefused
    · rw [he] at hgo
      exact absurd rfl hgo

/-- What is behind the events that a flush leaves in the store is not sent. -/
theorem flushIfPending_unsent (e : Event)
    (h : (a.flushIfPending p).offlineStore.empty = false) :
    p.Unsent e a.calls (a.flushIfPending p).offlineStore.events (a.flushIfPending p).calls := by
  unfold Application.flushIfPending Application.flushOfflineEvents isConnected at h ⊢
  cases hempty : a.offlineStore.empty with
  | true =>
    rw [hempty] at h
    exact absurd (hempty.symm.trans h) (by simp)
  | false =>
    rw [hempty] at h
    cases hconnected : (p.env a.calls).connected with
    | false => exact .disconnected (Nat.le_refl _) hconnected
    | true =>
      rw [hconnected] at h
      exact flushLoop_unsent e (Nat.le_succ _) h

/-- An event that the direct attempt did not send has a reason. -/
theorem publishDirect_unsent (hr : Ready p capacity mutex a) {since : Nat}
    (hsince : since ≤ a.calls)
    (hbehind : a.offlineStore.empty = false → p.Unsent event since a.offlineStore.events a.calls)
    (h : (a.publishDirect p event).2 = false) :
    p.Unsent event since (a.publishDirect p event).1.offlineStore.events
      (a.publishDirect p event).1.calls := by
  unfold publishDirect isConnected serialize publish at h ⊢
  cases hempty : a.offlineStore.empty with
  | false => simpa [hempty] using hbehind hempty
  | true =>
    have hnil := hr.events_nil hempty
    cases hconnected : (p.env a.calls).connected with
    | false => simpa [hempty, hconnected, called] using .disconnected hsince hconnected
    | true =>
      cases hpayload : (p.payload (a.calls + 1) event).isEmpty with
      | true =>
        have hunsent : p.Unsent event since [] (a.calls + 2) :=
          .unserializable hsince hconnected hpayload
        unfold Platform.payload at hpayload
        simpa [hempty, hconnected, hpayload, called, hnil] using hunsent
      | false =>
        have hunsent : (p.env (a.calls + 2)).accepted = false →
            p.Unsent event since [] (a.calls + 3) := .refused hsince hconnected hpayload
        unfold Platform.payload at hpayload
        simp only [hempty, hconnected, hpayload, called, observe, Bool.not_true, Bool.false_eq_true,
          if_false] at h ⊢
        rw [hnil]
        exact hunsent h

/-! ## Discarded with a reason -/

variable (p) in
/-- Only heartbeats are discarded, and each for what was answered since it took
its number. -/
def Explained (a : Application) : Prop :=
  ∀ event held calls, .heartbeatDiscarded event held calls ∈ a.trace →
    event.type = .heartbeat ∧
      ∃ since, .assigned event since ∈ a.trace ∧ p.Unsent event since held calls

theorem Explained.continues {a' : Application} (h : a.Explained p) (hcont : Continues a a') :
    a'.Explained p := by
  intro event held calls hmem
  obtain ⟨more, htrace, hmore⟩ := hcont
  rw [htrace] at hmem ⊢
  rcases List.mem_append.mp hmem with hmem | hmem
  · obtain ⟨ht, since, hassigned, hunsent⟩ := h event held calls hmem
    exact ⟨ht, since, List.mem_append_left more hassigned, hunsent⟩
  · exact absurd hmem (hmore event held calls)

theorem Explained.bufferEvent (hr : Ready p capacity mutex a) (h : a.Explained p) {since : Nat}
    (hassigned : .assigned event since ∈ a.trace)
    (hunsent : p.Unsent event since a.offlineStore.events a.calls) :
    (a.bufferEvent event).Explained p := by
  rcases bufferEvent_cases hr event with ⟨ht, he⟩ | ⟨-, -, -, -, he⟩ | ⟨-, -, he⟩ <;> rw [he]
  · intro e held calls hmem
    rcases List.mem_append.mp hmem with hold | hnew
    · obtain ⟨ht', since', hassigned', hunsent'⟩ := h e held calls hold
      exact ⟨ht', since', List.mem_append_left _ hassigned', hunsent'⟩
    · cases List.mem_singleton.mp hnew
      exact ⟨ht, since, List.mem_append_left _ hassigned, hunsent⟩
  · refine h.continues ⟨_, List.append_assoc _ _ _, fun e held calls hmem => ?_⟩
    rw [List.mem_append, List.mem_singleton] at hmem
    rcases hmem with hmem | hmem
    · obtain ⟨older, hobs⟩ := supersededObs_obs hmem
      cases hobs
    · cases hmem
  · exact h.continues ⟨[_], rfl, by simp⟩

/-- The calls between taking the number and the discard are those of
`publishOrBuffer`. -/
theorem Explained.publishOrBuffer (hr : Ready p capacity mutex a) (h : a.Explained p)
    (hassigned : .assigned event a.calls ∈ a.trace) : (a.publishOrBuffer p event).Explained p := by
  have hflush := flushIfPending_advances hr [event]
  have hdirect := publishDirect_advances hflush.ready event
  have hcont : Continues a ((a.flushIfPending p).publishDirect p event).1 :=
    (flushIfPending_continues a).trans (publishDirect_continues _ event)
  rw [publishOrBuffer_eq]
  unfold settle
  split
  · exact h.continues hcont
  · next hsent =>
    refine (h.continues hcont).bufferEvent hdirect.ready (hcont.mem hassigned) ?_
    exact publishDirect_unsent hflush.ready (flushIfPending_calls a) (flushIfPending_unsent event)
      (Bool.eq_false_iff.mpr hsent)

theorem Explained.processEvent (hr : Ready p capacity mutex a) (h : a.Explained p) :
    (a.processEvent p event).Explained p := by
  have hconnected : (a.onConnected p event).Explained p := by
    unfold onConnected
    split
    · exact h.continues (flushOfflineEvents_continues a)
    · exact h
  cases hpub : shouldPublish event with
  | false =>
    rw [processEvent_local hpub]
    exact hconnected
  | true =>
    have hready :=
      ready_numbered (ready_applied (onConnected_advances hr event []).ready event) event
    have happlied : ((a.onConnected p event).applied event).Explained p := hconnected
    rw [processEvent_published hpub]
    refine (happlied.continues (numbered_continues _ event)).publishOrBuffer hready ?_
    exact List.mem_append_right _ (List.mem_singleton.mpr rfl)

end Steps

/-! ## Runs -/

theorem run_explained {p : Platform} {capacity : Nat} {mutex : Bool} {a : Application}
    (hr : Ready p capacity mutex a) (h : a.Explained p) (calls : List Call) :
    (a.run p calls).Explained p := by
  induction calls generalizing a with
  | nil => exact h
  | cons call calls ih =>
    refine ih (call_advances hr call).1 ?_
    cases call with
    | processEvent event => exact h.processEvent hr
    | flushOfflineEvents => exact h.continues (flushOfflineEvents_continues a)

end Application

end KaizenStation.Firmware
