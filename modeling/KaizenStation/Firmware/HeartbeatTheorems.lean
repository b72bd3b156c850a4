/-
KaizenStation.Firmware.HeartbeatTheorems — when heartbeats are made.

The loop of the central task looks at the clock once in each turn and makes a
heartbeat if the last one lies 30 seconds or more back. `Paced` reads it as
the timer of `Foundation.Cadence`; no turn does anything else to the timer,
whatever it receives and whatever the network answers (`Paced.turn`).
-/
import KaizenStation.Foundation.Cadence
import KaizenStation.Firmware.IndependenceTheorems
import KaizenStation.Firmware.RecoveryTheorems

namespace KaizenStation.Firmware

open KaizenStation.Foundation

namespace Application

/-- `Application::run` between two turns. `heartbeats` is no variable of it:
it lists the heartbeats made so far. -/
structure Loop where
  application : Application
  lastHeartbeatMs : UInt64 := 0
  heartbeats : List Event := []

namespace Loop

def start (a : Application) : Loop where
  application := a

section Turns

variable (p : Platform)

def turn (l : Loop) (t : Turn) : Loop where
  application := (l.application.iteration p l.lastHeartbeatMs t.received t.now t.freeHeap).1
  lastHeartbeatMs := (l.application.iteration p l.lastHeartbeatMs t.received t.now t.freeHeap).2
  heartbeats :=
    l.heartbeats ++ l.application.beat l.lastHeartbeatMs t.received t.now t.freeHeap

def run (l : Loop) (turns : List Turn) : Loop := turns.foldl (turn p) l

theorem run_append (l : Loop) (turns turns' : List Turn) :
    l.run p (turns ++ turns') = (l.run p turns).run p turns' := List.foldl_append ..

/-- It is `Application::run` that is observed. -/
theorem run_loop (a : Application) (turns : List Turn) :
    a.loop p turns =
      (((start a).run p turns).application, ((start a).run p turns).lastHeartbeatMs) := by
  have hfold : ∀ l : Loop, turns.foldl
      (fun s t => s.1.iteration p s.2 t.received t.now t.freeHeap)
        (l.application, l.lastHeartbeatMs) =
      ((l.run p turns).application, (l.run p turns).lastHeartbeatMs) := by
    induction turns with
    | nil => exact fun l => rfl
    | cons t turns ih => exact fun l => ih (l.turn p t)
  exact hfold (start a)

/-! ## The heartbeats among the numbered events -/

theorem processEvent_issued (a : Application) (event : Event) :
    (a.processEvent p event).issued = a.issued ++ a.outgoing event ∧
      (a.processEvent p event).nextSequenceId =
        a.nextSequenceId + UInt32.ofNat (a.outgoing event).length := by
  have hlocal := processEvent_localPart p a event
  refine ⟨congrArg LocalPart.issued hlocal, (congrArg LocalPart.nextSequenceId hlocal).trans ?_⟩
  cases h : shouldPublish event <;> simp [LocalPart.step, localPart, outgoing, h]

theorem received_issued (a : Application) (event? : Option Event) :
    (a.received p event?).issued = a.issued ++ a.sent event? ∧
      (a.received p event?).nextSequenceId =
        a.nextSequenceId + UInt32.ofNat (a.sent event?).length := by
  have hflush : ∀ b : Application, (b.flushIfPending p).issued = b.issued ∧
      (b.flushIfPending p).nextSequenceId = b.nextSequenceId := fun b =>
    ⟨congrArg LocalPart.issued (flushIfPending_localPart p b),
      congrArg LocalPart.nextSequenceId (flushIfPending_localPart p b)⟩
  unfold received
  cases event? with
  | none => simp [hflush, sent]
  | some event => simp [hflush, processEvent_issued, sent]

/-- A turn numbers what it received and then its heartbeat. -/
theorem turn_issued (l : Loop) (t : Turn) :
    (l.turn p t).application.issued = l.application.issued ++ l.application.sent t.received ++
      l.application.beat l.lastHeartbeatMs t.received t.now t.freeHeap := by
  obtain ⟨hissued, hnext⟩ := received_issued p l.application t.received
  show (l.application.iteration p l.lastHeartbeatMs t.received t.now t.freeHeap).1.issued = _
  rw [iteration_eq]
  unfold beat
  split
  · rw [(processEvent_issued p _ _).1, hissued]
    simp [outgoing, shouldPublish, heartbeat, hnext]
  · rw [hissued, List.append_nil]

/-- If none is received, the numbered heartbeats are those of the loop. -/
theorem run_issued (a : Application) {turns : List Turn}
    (h : ∀ t ∈ turns, ∀ event ∈ t.received, event.type ≠ .heartbeat) :
    ((start a).run p turns).application.issued.filter (·.type = .heartbeat) =
      a.issued.filter (·.type = .heartbeat) ++ ((start a).run p turns).heartbeats := by
  induction turns using List.reverseRecOn with
  | nil => simp [run, start]
  | append_singleton turns t ih =>
    have ih := ih fun t' ht' => h t' (List.mem_append_left _ ht')
    rw [run_append]
    show (((start a).run p turns).turn p t).application.issued.filter _ =
      a.issued.filter _ ++ (((start a).run p turns).turn p t).heartbeats
    generalize (start a).run p turns = l at ih
    have hsent : (l.application.sent t.received).filter (·.type = .heartbeat) = [] := by
      have hreceived := h t (by simp)
      cases he : t.received with
      | none => rfl
      | some event =>
        have hother := hreceived event he
        cases hpub : shouldPublish event <;> simp [sent, outgoing, hpub, hother]
    have hbeat : (l.application.beat l.lastHeartbeatMs t.received t.now t.freeHeap).filter
        (·.type = .heartbeat) =
        l.application.beat l.lastHeartbeatMs t.received t.now t.freeHeap := by
      unfold beat
      split <;> simp [heartbeat]
    rw [turn_issued, List.filter_append, List.filter_append, ih, hsent, hbeat, turn]
    simp

/-! ## The timer -/

/-- When the heartbeats were made. -/
def times (l : Loop) : List Nat := l.heartbeats.map (·.timestampMs.toNat)

/-- The loop has read the clock up to `now`, and its timer is on the beat. -/
structure Paced (gap now : Nat) (l : Loop) : Prop where
  onBeat : Cadence.OnBeat 30000 gap now l.times
  last : l.lastHeartbeatMs.toNat = Cadence.last l.times

theorem start_paced (a : Application) (gap : Nat) : (start a).Paced gap 0 :=
  ⟨Cadence.onBeat_nil (by decide), rfl⟩

variable {p}

/-- The unsigned difference does not wrap. -/
theorem Paced.due {gap now : Nat} {l : Loop} (h : l.Paced gap now) {reading : UInt64}
    (hle : now ≤ reading.toNat) :
    l.lastHeartbeatMs ≤ reading ∧
      (reading - l.lastHeartbeatMs ≥ HEARTBEAT_INTERVAL_MS ↔
        30000 ≤ reading.toNat - Cadence.last l.times) := by
  have hpast : l.lastHeartbeatMs ≤ reading := by
    rw [UInt64.le_iff_toNat_le, h.last]
    exact Nat.le_trans h.onBeat.past hle
  have hinterval : HEARTBEAT_INTERVAL_MS.toNat = 30000 := by decide
  refine ⟨hpast, ?_⟩
  rw [ge_iff_le, UInt64.le_iff_toNat_le, UInt64.toNat_sub_of_le _ _ hpast, hinterval, h.last]

/-- A turn is a tick of the timer. -/
theorem Paced.turn {gap now : Nat} {l : Loop} (h : l.Paced gap now) (t : Turn)
    (hle : now ≤ t.now.toNat) (hgap : t.now.toNat ≤ now + gap) :
    (l.turn p t).Paced gap t.now.toNat := by
  have hdue := (h.due hle).2
  have htimes : (l.turn p t).times = Cadence.tick 30000 l.times t.now.toNat := by
    unfold Cadence.tick times Loop.turn beat
    by_cases hbeat : t.now - l.lastHeartbeatMs ≥ HEARTBEAT_INTERVAL_MS
    · have hfires : 30000 ≤ t.now.toNat - Cadence.last (l.heartbeats.map (·.timestampMs.toNat)) :=
        hdue.mp hbeat
      simp [if_pos hbeat, if_pos hfires, heartbeat]
    · have hsilent : ¬ 30000 ≤
          t.now.toNat - Cadence.last (l.heartbeats.map (·.timestampMs.toNat)) :=
        fun hfires => hbeat (hdue.mpr hfires)
      simp [if_neg hbeat, if_neg hsilent]
  refine ⟨htimes ▸ h.onBeat.tick (by decide) hle hgap, ?_⟩
  rw [htimes]
  unfold Cadence.tick Loop.turn iteration
  by_cases hbeat : t.now - l.lastHeartbeatMs ≥ HEARTBEAT_INTERVAL_MS
  · rw [if_pos hbeat, if_pos (hdue.mp hbeat), Cadence.last_append]
  · rw [if_neg hbeat, if_neg fun hfires => hbeat (hdue.mpr hfires)]
    exact h.last

/-- The clock goes on by `gap` at most. -/
def Follows (gap t t' : Nat) : Prop := t ≤ t' ∧ t' ≤ t + gap

theorem Paced.run {gap now : Nat} {l : Loop} (h : l.Paced gap now) {turns : List Turn}
    (hclock : (now :: turns.map (·.now.toNat)).IsChain (Follows gap)) :
    (l.run p turns).Paced gap ((turns.map (·.now.toNat)).getLastD now) := by
  induction turns generalizing now l with
  | nil => exact h
  | cons t turns ih =>
    obtain ⟨⟨hle, hgap⟩, hrest⟩ := List.isChain_cons_cons.mp hclock
    have hnext := ih (h.turn (p := p) t hle hgap) hrest
    rw [List.map_cons, List.getLastD_cons]
    exact hnext

end Turns

end Loop

end Application

open Application Loop in
/-- Whatever is received and whatever the network does: heartbeats come at
least 30 seconds and less than 30 seconds and one gap of the clock's readings
apart, so by any reading their number is known up to the drift. The unsigned
difference never wraps. They are the heartbeats that are numbered. -/
theorem heartbeat_cadence (p : Platform) (a : Application) (gap : Nat) (turns : List Turn)
    (hclock : (0 :: turns.map (·.now.toNat)).IsChain (fun t t' => t ≤ t' ∧ t' ≤ t + gap)) :
    let l := (Loop.start a).run p turns
    (∀ k (hk : k < l.times.length), 30000 * (k + 1) ≤ l.times[k]) ∧
    (0 :: l.times).IsChain (fun h h' => h + 30000 ≤ h' ∧ h' < h + 30000 + gap) ∧
    (∀ before turn after, turns = before ++ turn :: after →
      ((Loop.start a).run p before).lastHeartbeatMs ≤ turn.now ∧
      ((Loop.start a).run p (before ++ [turn])).times.length ≤ turn.now.toNat / 30000 ∧
      turn.now.toNat / (30000 + gap) ≤
        ((Loop.start a).run p (before ++ [turn])).times.length) ∧
    ((∀ turn ∈ turns, ∀ event ∈ turn.received, event.type ≠ .heartbeat) →
      l.application.issued.filter (·.type = .heartbeat) =
        a.issued.filter (·.type = .heartbeat) ++ l.heartbeats) := by
  intro l
  have hpaced := (start_paced a gap).run (p := p) hclock
  refine ⟨fun k hk => hpaced.onBeat.nth k hk, hpaced.onBeat.apart, ?_, run_issued p a⟩
  rintro before turn after rfl
  have hsplit : (0 :: (before ++ turn :: after).map (·.now.toNat)) =
      (0 :: before.map (·.now.toNat)) ++ turn.now.toNat :: after.map (·.now.toNat) := by simp
  rw [hsplit, List.isChain_append] at hclock
  obtain ⟨hbefore, -, hnext⟩ := hclock
  obtain ⟨hle, hgap⟩ := hnext ((before.map (·.now.toNat)).getLastD 0)
    (by rw [List.getLast?_cons, List.getLastD_eq_getLast?]; rfl) turn.now.toNat rfl
  have hthen := (start_paced a gap).run (p := p) hbefore
  have hturn := hthen.turn (p := p) turn hle hgap
  rw [run_append]
  exact ⟨(hthen.due hle).1, hturn.onBeat.count (by decide)⟩

/-- The loop turns every ten seconds at most; a heartbeat falls due at 30 000
and, that one being late, not before 63 000. -/
def slowTurns : List Application.Turn :=
  [{ received := none, now := 9000, freeHeap := 64 },
   { received := none, now := 18500, freeHeap := 64 },
   { received := none, now := 28000, freeHeap := 64 },
   { received := none, now := 33000, freeHeap := 64 },
   { received := none, now := 43000, freeHeap := 64 },
   { received := none, now := 53000, freeHeap := 64 },
   { received := none, now := 62000, freeHeap := 64 },
   { received := none, now := 65000, freeHeap := 64 }]

theorem heartbeat_cadence_slowTurns :
    let l := (Application.Loop.start (Application.boot (OfflineEventStore.create 64))).run
      Platform.offline slowTurns
    (0 :: l.times).IsChain (fun h h' => h + 30000 ≤ h' ∧ h' < h + 30000 + 10000) :=
  (heartbeat_cadence Platform.offline (Application.boot (OfflineEventStore.create 64)) 10000
    slowTurns (by decide)).2.1

end KaizenStation.Firmware
