/-
KaizenStation.Firmware.OwedTheorems — the reports that are still owed while
the inputs stand still.

A driver whose input shows the same reports at most once more. What it `owes`
is one report or none; a poll that queues a report no longer owes it, one that
the queue refuses still does. So the queued events and the owed reports
together (`load`) only get more by what is posted, and every statement of the
central loop gets nearer to an empty queue, from which a posted event is one
turn of the loop (`empties`).
-/
import KaizenStation.Foundation.Countdown
import KaizenStation.Firmware.DeadbandTheorems
import KaizenStation.Firmware.ReportTheorems

namespace KaizenStation.Firmware

open KaizenStation.Foundation

/-! ## Inputs that stand still -/

/-- What the inputs show. -/
structure Floor where
  buttonLevel : Nat := 1
  toggleLevel : Nat := 1
  levelA : Nat := 1
  levelB : Nat := 1
  rawValue : Int32 := 0

/-- The act reads what the inputs show, if it reads an input; what it posts
is no report and is not published. -/
def Act.Shows (floor : Floor) : Act → Prop
  | .wait _ => True
  | .pollButton level _ => level = floor.buttonLevel
  | .pollToggle level _ => level = floor.toggleLevel
  | .pollEncoder levelA levelB => levelA = floor.levelA ∧ levelB = floor.levelB
  | .pollAnalog sample => ∀ rawValue ∈ sample, rawValue = floor.rawValue
  | .post event => event.Foreign ∧ Application.shouldPublish event = false
  | .central _ => True

def Act.isPost : Act → Bool
  | .post _ => true
  | _ => false

def Act.isCentral : Act → Bool
  | .central _ => true
  | _ => false

/-- The source that the act gets a reading of; 0 if of none. -/
def Act.reads : Act → UInt32
  | .pollButton _ _ => 1
  | .pollToggle _ _ => 2
  | .pollEncoder _ _ => 3
  | .pollAnalog (some _) => 4
  | _ => 0

theorem Act.Shows.quiet {floor : Floor} {act : Act} (h : act.Shows floor) : act.Quiet := by
  cases act with
  | post event => exact h
  | _ => trivial

/-! ## Reports that are owed -/

namespace DigitalInput

/-- A level that is not the reported one is still to be reported. -/
def owes (d : DigitalInput) (level : Nat) : Nat :=
  if d.reported? = some (readRawState level) then 0 else 1

/-- What one poll can do: nothing, be refused, or report. -/
theorem update_outcome (d : DigitalInput) (eventQueue : EventQueue) (level : Nat)
    (now stamp : UInt64) :
    let rawState := readRawState level
    (((d.sample rawState now).settled rawState now = false ∨ eventQueue.hasRoom = false) ∧
      d.update eventQueue level now stamp = (d.sample rawState now, eventQueue)) ∨
    (d.reported? ≠ some rawState ∧
      (d.update eventQueue level now stamp).2.items =
        eventQueue.items ++ [d.stateEvent rawState stamp] ∧
      (d.update eventQueue level now stamp).1 = { d.sample rawState now with
        stableState := rawState
        initialEventPending := false }) := by
  intro rawState
  obtain ⟨hqueue, hdriver⟩ := update_offer d eventQueue level now stamp
  have hoffer : d.offer level now stamp = if (d.sample rawState now).settled rawState now then
      some (d.stateEvent rawState stamp) else none := rfl
  cases hsettled : (d.sample rawState now).settled rawState now with
  | false =>
    rw [hsettled, if_neg Bool.false_ne_true] at hoffer
    rw [hoffer] at hqueue hdriver
    exact .inl ⟨.inl rfl, Prod.ext hdriver hqueue⟩
  | true =>
    rw [hsettled, if_pos rfl] at hoffer
    rw [hoffer] at hqueue hdriver
    cases hroom : eventQueue.hasRoom with
    | false =>
      rw [hroom] at hdriver
      have hfull : ¬ eventQueue.items.length < eventQueue.capacity := of_decide_eq_false hroom
      have hsame : (eventQueue.send (d.stateEvent rawState stamp)).1 = eventQueue :=
        congrArg Prod.fst (EventQueue.send_refused hfull)
      exact .inl ⟨.inr rfl, Prod.ext hdriver (hqueue.trans hsame)⟩
    | true =>
      rw [hroom] at hdriver
      have hfree : eventQueue.items.length < eventQueue.capacity := of_decide_eq_true hroom
      refine .inr ⟨?_, ?_, hdriver⟩
      · obtain ⟨hstable, hpending⟩ := d.sample_reported rawState now
        intro hreported
        simp only [settled, hstable, hpending] at hsettled
        unfold reported? at hreported
        cases hp : d.initialEventPending with
        | true => rw [hp] at hreported; cases hreported
        | false =>
          rw [hp] at hreported hsettled
          have hsame : d.stableState = rawState := Option.some.inj hreported
          simp [hsame] at hsettled
      · rw [hqueue]
        exact (EventQueue.send_accepted hfree).2

theorem reported?_sample (d : DigitalInput) (rawState : Bool) (now : UInt64) :
    (d.sample rawState now).reported? = d.reported? := by
  obtain ⟨hstable, hpending⟩ := d.sample_reported rawState now
  rw [reported?, reported?, state, state, hstable, hpending]

/-- A poll queues no more than the report that is owed. -/
theorem update_owes (d : DigitalInput) (eventQueue : EventQueue) (level : Nat)
    (now stamp : UInt64) :
    (d.update eventQueue level now stamp).2.items.length +
        (d.update eventQueue level now stamp).1.owes level ≤
      eventQueue.items.length + d.owes level ∧
    (d.update eventQueue level now stamp).1.owes level ≤ d.owes level := by
  rcases d.update_outcome eventQueue level now stamp with ⟨-, hsame⟩ | ⟨hnews, hitems, hdriver⟩
  · rw [hsame]
    simp [owes, reported?_sample]
  · have hdone : (d.update eventQueue level now stamp).1.owes level = 0 := by
      rw [hdriver, owes, if_pos]
      rfl
    have howed : d.owes level = 1 := if_neg hnews
    rw [hdone, hitems, howed]
    simp

/-- The driver has seen the level, no later than at this time. -/
structure Sampled (d : DigitalInput) (level : Nat) (time : Nat) : Prop where
  lastRawState : d.lastRawState = readRawState level
  lastChangeTimeMs : d.lastChangeTimeMs.toNat ≤ time

theorem sample_of_sampled {d : DigitalInput} {level time : Nat} (h : d.Sampled level time)
    (now : UInt64) : d.sample (readRawState level) now = d := by
  rw [sample, h.lastRawState, bne_self_eq_false, if_neg Bool.false_ne_true]

theorem update_registers (d : DigitalInput) (eventQueue : EventQueue) (level : Nat)
    (now stamp : UInt64) :
    (d.update eventQueue level now stamp).1.lastRawState =
        (d.sample (readRawState level) now).lastRawState ∧
      (d.update eventQueue level now stamp).1.lastChangeTimeMs =
        (d.sample (readRawState level) now).lastChangeTimeMs := by
  rcases d.update_outcome eventQueue level now stamp with ⟨-, hsame⟩ | ⟨-, -, hdriver⟩
  · rw [hsame]
    exact ⟨rfl, rfl⟩
  · rw [hdriver]
    exact ⟨rfl, rfl⟩

/-- A poll samples the level. -/
theorem update_sampled (d : DigitalInput) (eventQueue : EventQueue) (level : Nat)
    {now : UInt64} (stamp : UInt64) (hpast : d.lastChangeTimeMs ≤ now) :
    (d.update eventQueue level now stamp).1.Sampled level now.toNat := by
  obtain ⟨hraw, htime⟩ := d.update_registers eventQueue level now stamp
  refine ⟨hraw.trans ?_, ?_⟩
  · unfold sample
    split
    · rfl
    · next hsame => simpa using Eq.symm (by simpa using hsame)
  · rw [htime]
    unfold sample
    split
    · exact Nat.le_refl _
    · exact UInt64.le_iff_toNat_le.mp hpast

theorem Sampled.update {d : DigitalInput} {level time : Nat} (h : d.Sampled level time)
    (eventQueue : EventQueue) (now stamp : UInt64) :
    (d.update eventQueue level now stamp).1.Sampled level time := by
  obtain ⟨hraw, htime⟩ := d.update_registers eventQueue level now stamp
  rw [sample_of_sampled h] at hraw htime
  exact ⟨hraw.trans h.lastRawState, htime ▸ h.lastChangeTimeMs⟩

/-- A level sampled long enough ago is reported by a poll that finds room. -/
theorem Sampled.settles {d : DigitalInput} {level time : Nat} (h : d.Sampled level time)
    {eventQueue : EventQueue} (hroom : eventQueue.hasRoom = true) {now : UInt64} (stamp : UInt64)
    (hlate : time + d.debounceMs.toNat ≤ now.toNat) :
    (d.update eventQueue level now stamp).1.reported? = some (readRawState level) := by
  rcases d.update_outcome eventQueue level now stamp with ⟨hwhy, hsame⟩ | ⟨-, -, hdriver⟩
  · rw [hsame, sample_of_sampled h]
    rcases hwhy with hunsettled | hfull
    · rw [sample_of_sampled h] at hunsettled
      have hback : d.lastChangeTimeMs ≤ now :=
        UInt64.le_iff_toNat_le.mpr (by have := h.lastChangeTimeMs; omega)
      have helapsed : now - d.lastChangeTimeMs ≥ d.debounceMs.toUInt64 := by
        rw [ge_iff_le, UInt64.le_iff_toNat_le, UInt64.toNat_sub_of_le _ _ hback,
          UInt32.toNat_toUInt64]
        have := h.lastChangeTimeMs
        omega
      simp only [settled, decide_eq_true helapsed, Bool.and_true, Bool.or_eq_false_iff,
        bne_eq_false_iff_eq] at hunsettled
      rw [reported?_of hunsettled.1, hunsettled.2]
      rfl
    · rw [hroom] at hfull
      cases hfull
  · rw [hdriver]
    rfl

end DigitalInput

namespace AnalogInput

/-- A percentage that `update` would queue is still to be reported. -/
def owes (a : AnalogInput) (rawValue : Int32) : Nat :=
  if a.unchanged (rawToPercent rawValue) then 0 else 1

theorem update_outcome (a : AnalogInput) (eventQueue : EventQueue) (rawValue : Int32)
    (stamp : UInt64) :
    ((a.initialized = false ∨ a.unchanged (rawToPercent rawValue) = true ∨
        eventQueue.hasRoom = false) ∧
      a.update eventQueue (some rawValue) stamp = (a, eventQueue)) ∨
    (a.unchanged (rawToPercent rawValue) = false ∧
      (a.update eventQueue (some rawValue) stamp).2.items =
        eventQueue.items ++ [a.valueEvent (rawToPercent rawValue) stamp] ∧
      (a.update eventQueue (some rawValue) stamp).1 = { a with
        stablePercent := rawToPercent rawValue
        initialEventPending := false }) := by
  unfold update publishValue
  cases hinit : a.initialized with
  | false => exact .inl ⟨.inl rfl, rfl⟩
  | true =>
    simp only [Bool.not_true, Bool.false_eq_true, if_false]
    cases hsame : a.unchanged (rawToPercent rawValue) with
    | true => exact .inl ⟨.inr (.inl rfl), rfl⟩
    | false =>
      simp only [Bool.false_eq_true, if_false]
      rcases eventQueue.send_cases (a.valueEvent (rawToPercent rawValue) stamp) with
        ⟨-, hsent, hitems⟩ | ⟨hfull, hsent, hsame⟩
      · rw [if_pos hsent]
        exact .inr ⟨trivial, hitems, by simp⟩
      · rw [if_neg (by simp [hsent])]
        exact .inl ⟨.inr (.inr (decide_eq_false hfull)), Prod.ext rfl hsame⟩

theorem unchanged_reported (a : AnalogInput) (percent : Int32) :
    ({ a with stablePercent := percent, initialEventPending := false } :
      AnalogInput).unchanged percent = true := by
  simp [unchanged]

theorem update_owes (a : AnalogInput) (eventQueue : EventQueue) {rawValue : Int32}
    {sample : Option Int32} (hsample : ∀ x ∈ sample, x = rawValue) (stamp : UInt64) :
    (a.update eventQueue sample stamp).2.items.length +
        (a.update eventQueue sample stamp).1.owes rawValue ≤
      eventQueue.items.length + a.owes rawValue ∧
    (a.update eventQueue sample stamp).1.owes rawValue ≤ a.owes rawValue := by
  cases sample with
  | none =>
    have hsame : a.update eventQueue none stamp = (a, eventQueue) := by
      unfold update
      cases a.initialized <;> rfl
    rw [hsame]
    exact ⟨Nat.le_refl _, Nat.le_refl _⟩
  | some x =>
    obtain rfl : x = rawValue := hsample x rfl
    rcases a.update_outcome eventQueue x stamp with ⟨-, hsame⟩ | ⟨hnews, hitems, hdriver⟩
    · rw [hsame]
      exact ⟨Nat.le_refl _, Nat.le_refl _⟩
    · have hdone : (a.update eventQueue (some x) stamp).1.owes x = 0 := by
        rw [hdriver, owes, if_pos (unchanged_reported _ _)]
      have howed : a.owes x = 1 := by rw [owes, hnews, if_neg Bool.false_ne_true]
      rw [hdone, hitems, howed]
      simp

theorem update_kept (a : AnalogInput) (eventQueue : EventQueue) (sample : Option Int32)
    (stamp : UInt64) :
    (a.update eventQueue sample stamp).1.initialized = a.initialized ∧
      (a.update eventQueue sample stamp).1.deadbandPercent = a.deadbandPercent := by
  cases sample with
  | none =>
    unfold update
    split <;> exact ⟨rfl, rfl⟩
  | some rawValue =>
    rcases a.update_outcome eventQueue rawValue stamp with ⟨-, hsame⟩ | ⟨-, -, hdriver⟩
    · rw [hsame]
      exact ⟨rfl, rfl⟩
    · rw [hdriver]
      exact ⟨rfl, rfl⟩

/-- A poll that finds room leaves nothing owed. -/
theorem update_pays {a : AnalogInput} (hinit : a.initialized = true) {eventQueue : EventQueue}
    (hroom : eventQueue.hasRoom = true) (rawValue : Int32) (stamp : UInt64) :
    (a.update eventQueue (some rawValue) stamp).1.owes rawValue = 0 := by
  rcases a.update_outcome eventQueue rawValue stamp with ⟨hwhy, hsame⟩ | ⟨-, -, hdriver⟩
  · rw [hsame]
    rcases hwhy with h | h | h
    · rw [hinit] at h
      cases h
    · exact if_pos h
    · rw [hroom] at h
      cases h
  · rw [hdriver, owes, if_pos (unchanged_reported _ _)]

end AnalogInput

namespace RotaryEncoder

/-- A state that is not the last one sampled may count. -/
def owes (e : RotaryEncoder) (state : Fin 4) : Nat := if e.previousState = state then 0 else 1

theorem update_owes (e : RotaryEncoder) (eventQueue : EventQueue) (levelA levelB : Nat)
    (stamp : UInt64) :
    (e.update eventQueue levelA levelB stamp).2.items.length ≤
      eventQueue.items.length + e.owes (readState levelA levelB) ∧
    (e.update eventQueue levelA levelB stamp).1.owes (readState levelA levelB) = 0 := by
  obtain ⟨hdriver, hqueue⟩ := e.update_offer eventQueue levelA levelB stamp
  have hprevious : (e.moved (readState levelA levelB)).previousState = readState levelA levelB := by
    unfold moved
    split <;> rfl
  refine ⟨?_, by rw [hdriver, owes, if_pos hprevious]⟩
  rw [hqueue]
  by_cases hstill : e.previousState = readState levelA levelB
  · have hnone : e.offer (readState levelA levelB) stamp = none := by
      have hnothing : movement e.previousState (readState levelA levelB) = 0 := by
        rw [← hstill]
        exact movement_self e.previousState
      rw [offer, moved_still (.inl hnothing), if_pos rfl]
    rw [hnone]
    exact Nat.le_add_right _ _
  · rw [owes, if_neg hstill]
    cases e.offer (readState levelA levelB) stamp with
    | none => exact Nat.le_add_right _ _
    | some event =>
      rw [EventQueue.send_items]
      split <;> simp

end RotaryEncoder

/-! ## What the queue keeps -/

theorem DigitalInput.update_capacity (d : DigitalInput) (eventQueue : EventQueue) (level : Nat)
    (now stamp : UInt64) :
    (d.update eventQueue level now stamp).2.capacity = eventQueue.capacity := by
  rw [(d.update_offer eventQueue level now stamp).1]
  cases d.offer level now stamp with
  | none => rfl
  | some event => exact eventQueue.send_capacity event

theorem RotaryEncoder.update_capacity (e : RotaryEncoder) (eventQueue : EventQueue)
    (levelA levelB : Nat) (stamp : UInt64) :
    (e.update eventQueue levelA levelB stamp).2.capacity = eventQueue.capacity := by
  rw [(e.update_offer eventQueue levelA levelB stamp).2]
  cases e.offer (readState levelA levelB) stamp with
  | none => rfl
  | some event => exact eventQueue.send_capacity event

theorem AnalogInput.update_capacity (a : AnalogInput) (eventQueue : EventQueue)
    (sample : Option Int32) (stamp : UInt64) :
    (a.update eventQueue sample stamp).2.capacity = eventQueue.capacity := by
  obtain ⟨-, ⟨hsame, -⟩ | ⟨rawValue, -, hqueue, -⟩⟩ := a.update_cases eventQueue sample stamp
  · rw [hsame]
  · rw [hqueue]
    exact eventQueue.send_capacity _

theorem DigitalInput.update_past {d : DigitalInput} {now : UInt64}
    (h : d.lastChangeTimeMs ≤ now) (eventQueue : EventQueue) (level : Nat) (stamp : UInt64) :
    (d.update eventQueue level now stamp).1.lastChangeTimeMs ≤ now :=
  UInt64.le_iff_toNat_le.mpr (d.update_sampled eventQueue level stamp h).lastChangeTimeMs

namespace Station

/-! ## What every running station has -/

structure Equipped (s : Station) : Prop where
  capacity : s.eventQueue.capacity = EVENT_QUEUE_SIZE
  buttonTime : s.buttonInput.lastChangeTimeMs ≤ s.nowMs
  toggleTime : s.toggleInput.lastChangeTimeMs ≤ s.nowMs
  initialized : s.analogInput.initialized = true
  deadbandPercent : s.analogInput.deadbandPercent = ANALOG_DEADBAND_PERCENT
  stablePercent : AnalogInput.Percentage s.analogInput.stablePercent

variable {p : Platform}

theorem boot_equipped (r : Readings) (mutex : Bool) : (boot r mutex).Equipped :=
  ⟨rfl, le_later _ _, UInt64.le_refl _, rfl, rfl, AnalogInput.rawToPercent_percentage r.rawValue⟩

theorem central_nowMs (p : Platform) (s : Station) (freeHeap : UInt32) :
    (s.central p freeHeap).nowMs = s.nowMs := by
  unfold central heartbeat
  split
  · rfl
  · rfl
  · split <;> rfl

theorem central_capacity (p : Platform) (s : Station) (freeHeap : UInt32) :
    (s.central p freeHeap).eventQueue.capacity = s.eventQueue.capacity := by
  unfold central heartbeat
  split
  · exact s.eventQueue.receive_capacity
  · rfl
  · split <;> rfl

/-- Time does not go back. -/
theorem le_step (p : Platform) (s : Station) (act : Act) : s.nowMs ≤ (s.step p act).nowMs := by
  cases act with
  | wait reading => exact le_later _ _
  | pollButton level reading => exact le_later _ _
  | pollToggle level reading => exact le_later _ _
  | central freeHeap => exact UInt64.le_of_eq (s.central_nowMs p freeHeap).symm
  | _ => exact UInt64.le_refl _

theorem Equipped.step {s : Station} (h : s.Equipped) (act : Act) : (s.step p act).Equipped := by
  have htime := s.le_step p act
  have hbutton := UInt64.le_trans h.buttonTime htime
  have htoggle := UInt64.le_trans h.toggleTime htime
  cases act with
  | wait reading => exact { h with buttonTime := hbutton, toggleTime := htoggle }
  | pollButton level reading =>
    exact { h with
      capacity := (DigitalInput.update_capacity _ _ _ _ _).trans h.capacity
      buttonTime := UInt64.le_trans (DigitalInput.update_past h.buttonTime _ _ _) htime
      toggleTime := htoggle }
  | pollToggle level reading =>
    exact { h with
      capacity := (DigitalInput.update_capacity _ _ _ _ _).trans h.capacity
      buttonTime := hbutton
      toggleTime := UInt64.le_trans (DigitalInput.update_past h.toggleTime _ _ _) htime }
  | pollEncoder levelA levelB =>
    exact { h with capacity := (RotaryEncoder.update_capacity _ _ _ _ _).trans h.capacity }
  | pollAnalog sample =>
    have hkept : (s.analogInput.update s.eventQueue sample s.nowMs).1.initialized =
          s.analogInput.initialized ∧
        (s.analogInput.update s.eventQueue sample s.nowMs).1.deadbandPercent =
          s.analogInput.deadbandPercent :=
      AnalogInput.update_kept _ _ _ _
    refine { h with
      capacity := (AnalogInput.update_capacity _ _ _ _).trans h.capacity
      initialized := hkept.1.trans h.initialized
      deadbandPercent := hkept.2.trans h.deadbandPercent
      stablePercent := ?_ }
    obtain ⟨-, ⟨-, hsame⟩ | ⟨rawValue, -, -, -, hstable, -⟩⟩ :=
      s.analogInput.update_cases s.eventQueue sample s.nowMs
    · exact (congrArg AnalogInput.stablePercent hsame) ▸ h.stablePercent
    · exact hstable ▸ AnalogInput.rawToPercent_percentage rawValue
  | post event => exact { h with capacity := (s.eventQueue.send_capacity event).trans h.capacity }
  | central freeHeap =>
    obtain ⟨hb, ht, -, ha, -⟩ := s.central_drivers p freeHeap
    show (s.central p freeHeap).Equipped
    refine ⟨(s.central_capacity p freeHeap).trans h.capacity, ?_, ?_, ?_, ?_, ?_⟩
    · rw [hb, s.central_nowMs p freeHeap]
      exact h.buttonTime
    · rw [ht, s.central_nowMs p freeHeap]
      exact h.toggleTime
    · rw [ha]
      exact h.initialized
    · rw [ha]
      exact h.deadbandPercent
    · rw [ha]
      exact h.stablePercent

/-! ## What is queued or owed -/

/-- The reports that are still to be queued while the inputs show `floor`. -/
def owes (floor : Floor) (s : Station) : Nat :=
  s.buttonInput.owes floor.buttonLevel + s.toggleInput.owes floor.toggleLevel +
    s.rotaryEncoder.owes (RotaryEncoder.readState floor.levelA floor.levelB) +
    s.analogInput.owes floor.rawValue

def load (floor : Floor) (s : Station) : Nat := s.eventQueue.items.length + s.owes floor

variable {floor : Floor} {s : Station} {act : Act}

theorem owes_le (floor : Floor) (s : Station) : s.owes floor ≤ 4 := by
  unfold owes DigitalInput.owes RotaryEncoder.owes AnalogInput.owes
  split <;> split <;> split <;> split <;> simp

/-- No driver comes to owe a report. -/
theorem step_owes (p : Platform) (h : act.Shows floor) (s : Station) :
    (s.step p act).buttonInput.owes floor.buttonLevel ≤ s.buttonInput.owes floor.buttonLevel ∧
    (s.step p act).toggleInput.owes floor.toggleLevel ≤ s.toggleInput.owes floor.toggleLevel ∧
    (s.step p act).rotaryEncoder.owes (RotaryEncoder.readState floor.levelA floor.levelB) ≤
      s.rotaryEncoder.owes (RotaryEncoder.readState floor.levelA floor.levelB) ∧
    (s.step p act).analogInput.owes floor.rawValue ≤ s.analogInput.owes floor.rawValue := by
  cases act with
  | wait reading => exact ⟨Nat.le_refl _, Nat.le_refl _, Nat.le_refl _, Nat.le_refl _⟩
  | pollButton level reading =>
    obtain rfl : level = floor.buttonLevel := h
    exact ⟨(s.buttonInput.update_owes _ _ _ _).2, Nat.le_refl _, Nat.le_refl _, Nat.le_refl _⟩
  | pollToggle level reading =>
    obtain rfl : level = floor.toggleLevel := h
    exact ⟨Nat.le_refl _, (s.toggleInput.update_owes _ _ _ _).2, Nat.le_refl _, Nat.le_refl _⟩
  | pollEncoder levelA levelB =>
    obtain ⟨rfl, rfl⟩ : levelA = floor.levelA ∧ levelB = floor.levelB := h
    have hread := (s.rotaryEncoder.update_owes s.eventQueue floor.levelA floor.levelB s.nowMs).2
    exact ⟨Nat.le_refl _, Nat.le_refl _, Nat.le_trans (Nat.le_of_eq hread) (Nat.zero_le _),
      Nat.le_refl _⟩
  | pollAnalog sample =>
    exact ⟨Nat.le_refl _, Nat.le_refl _, Nat.le_refl _,
      (s.analogInput.update_owes s.eventQueue h s.nowMs).2⟩
  | post event => exact ⟨Nat.le_refl _, Nat.le_refl _, Nat.le_refl _, Nat.le_refl _⟩
  | central freeHeap =>
    obtain ⟨hb, ht, he, ha, -⟩ := s.central_drivers p freeHeap
    show (s.central p freeHeap).buttonInput.owes _ ≤ _ ∧
      (s.central p freeHeap).toggleInput.owes _ ≤ _ ∧
      (s.central p freeHeap).rotaryEncoder.owes _ ≤ _ ∧
      (s.central p freeHeap).analogInput.owes _ ≤ _
    rw [hb, ht, he, ha]
    exact ⟨Nat.le_refl _, Nat.le_refl _, Nat.le_refl _, Nat.le_refl _⟩

theorem step_owes_total (p : Platform) (h : act.Shows floor) (s : Station) :
    (s.step p act).owes floor ≤ s.owes floor := by
  obtain ⟨hbutton, htoggle, hencoder, hanalog⟩ := step_owes p h s
  unfold owes
  omega

theorem central_owes (p : Platform) (floor : Floor) (s : Station) (freeHeap : UInt32) :
    (s.central p freeHeap).owes floor = s.owes floor := by
  obtain ⟨hb, ht, he, ha, -⟩ := s.central_drivers p freeHeap
  unfold owes
  rw [hb, ht, he, ha]

/-- What an act of the input task queues was owed, and a post queues one
event. -/
theorem input_load (p : Platform) (h : act.Shows floor) (hinput : act.isCentral = false)
    (s : Station) :
    (s.step p act).load floor ≤ s.load floor + (if act.isPost then 1 else 0) ∧
      (s.step p act).loopPoint = s.loopPoint := by
  cases act with
  | wait reading => exact ⟨Nat.le_refl _, rfl⟩
  | pollButton level reading =>
    obtain rfl : level = floor.buttonLevel := h
    have hpoll :=
      (s.buttonInput.update_owes s.eventQueue floor.buttonLevel s.nowMs (s.tick reading)).1
    refine ⟨?_, rfl⟩
    simp only [load, owes, Station.step, Station.pollButton]
    omega
  | pollToggle level reading =>
    obtain rfl : level = floor.toggleLevel := h
    have hpoll :=
      (s.toggleInput.update_owes s.eventQueue floor.toggleLevel s.nowMs (s.tick reading)).1
    refine ⟨?_, rfl⟩
    simp only [load, owes, Station.step, Station.pollToggle]
    omega
  | pollEncoder levelA levelB =>
    obtain ⟨rfl, rfl⟩ : levelA = floor.levelA ∧ levelB = floor.levelB := h
    obtain ⟨hpoll, hread⟩ :=
      s.rotaryEncoder.update_owes s.eventQueue floor.levelA floor.levelB s.nowMs
    refine ⟨?_, rfl⟩
    simp only [load, owes, Station.step, Station.pollEncoder]
    omega
  | pollAnalog sample =>
    have hpoll := (s.analogInput.update_owes s.eventQueue h s.nowMs).1
    refine ⟨?_, rfl⟩
    simp only [load, owes, Station.step, Station.pollAnalog]
    omega
  | post event =>
    have hitems : (s.eventQueue.send event).1.items.length ≤ s.eventQueue.items.length + 1 := by
      rw [EventQueue.send_items]
      split <;> simp
    refine ⟨?_, rfl⟩
    simp only [load, owes, Station.step, Act.isPost, if_true]
    omega
  | central freeHeap => cases hinput

/-- The statements of the loop that come before the next `receive`. -/
def untilReceive (s : Station) : Nat :=
  match s.loopPoint with
  | .receive => 0
  | .heartbeat => 1
  | .flush => 2

/-- Statements of the loop until the queue is empty, if nothing is posted. -/
def untilEmpty (floor : Floor) (s : Station) : Nat := 3 * s.load floor + s.untilReceive

/-- What the three statements do to the queue. -/
theorem central_queue (p : Platform) (s : Station) (freeHeap : UInt32) :
    (s.loopPoint = .receive ∧ (s.central p freeHeap).loopPoint = .flush ∧
      (s.central p freeHeap).eventQueue.items = s.eventQueue.items.tail) ∨
    (s.loopPoint = .flush ∧ (s.central p freeHeap).loopPoint = .heartbeat ∧
      (s.central p freeHeap).eventQueue = s.eventQueue) ∨
    (s.loopPoint = .heartbeat ∧ (s.central p freeHeap).loopPoint = .receive ∧
      (s.central p freeHeap).eventQueue = s.eventQueue) := by
  unfold central
  split
  · next hpoint =>
    refine .inl ⟨hpoint, rfl, ?_⟩
    cases hq : s.eventQueue.items with
    | nil => simp [receive, EventQueue.receive_nil hq, hq]
    | cons event rest => exact (EventQueue.receive_cons hq).2.1
  · next hpoint => exact .inr (.inl ⟨hpoint, rfl, rfl⟩)
  · next hpoint =>
    refine .inr (.inr ⟨hpoint, ?_⟩)
    unfold heartbeat
    split <;> exact ⟨rfl, rfl⟩

/-- A statement of the loop gets nearer to an empty queue. -/
theorem central_nearer (p : Platform) (floor : Floor) (s : Station) (freeHeap : UInt32)
    (hqueue : s.eventQueue.items ≠ []) :
    (s.central p freeHeap).untilEmpty floor + 1 ≤ s.untilEmpty floor := by
  have howes := s.central_owes p floor freeHeap
  have hlength := List.length_pos_of_ne_nil hqueue
  unfold untilEmpty load untilReceive
  rw [howes]
  rcases s.central_queue p freeHeap with ⟨hpoint, hpoint', hq⟩ | ⟨hpoint, hpoint', hq⟩ |
    ⟨hpoint, hpoint', hq⟩ <;> rw [hpoint, hpoint', hq]
  · rw [List.length_tail]
    simp only []
    omega
  · simp only []
    omega
  · simp only []
    omega

theorem central_load (p : Platform) (floor : Floor) (s : Station) (freeHeap : UInt32) :
    (s.central p freeHeap).load floor ≤ s.load floor := by
  unfold load
  rw [s.central_owes p floor freeHeap]
  refine Nat.add_le_add_right ?_ _
  rcases s.central_queue p freeHeap with ⟨-, -, hq⟩ | ⟨-, -, hq⟩ | ⟨-, -, hq⟩ <;> rw [hq]
  rw [List.length_tail]
  exact Nat.sub_le _ _

theorem step_load (p : Platform) (h : act.Shows floor) (s : Station) :
    (s.step p act).load floor ≤ s.load floor + (if act.isPost then 1 else 0) := by
  cases hcentral : act.isCentral with
  | false => exact (input_load p h hcentral s).1
  | true =>
    cases act with
    | central freeHeap => exact s.central_load p floor freeHeap
    | _ => cases hcentral

/-- While the inputs stand still, the loop empties the queue, with one turn
more for each event that is posted. -/
theorem empties (p : Platform) (floor : Floor) :
    Countdown (step p) (Act.Shows floor) (fun _ => True) (fun s => s.eventQueue.items = [])
      (untilEmpty floor) Act.isCentral Act.isPost 3 where
  keep _ _ _ _ := trivial
  count s act _ hshows hqueue := by
    refine .inr ?_
    cases hcentral : act.isCentral with
    | false =>
      obtain ⟨hload, hpoint⟩ := input_load p hshows hcentral s
      unfold untilEmpty untilReceive
      rw [hpoint, if_neg Bool.false_ne_true]
      omega
    | true =>
      cases act with
      | central freeHeap => exact s.central_nearer p floor freeHeap hqueue
      | _ => cases hcentral
  zero s _ hzero := by
    unfold untilEmpty load at hzero
    exact List.length_eq_zero_iff.mp (by omega)

end Station

end KaizenStation.Firmware
