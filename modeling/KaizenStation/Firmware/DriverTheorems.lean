/-
KaizenStation.Firmware.DriverTheorems — what one poll of a driver can do.

Each poll either appends one report to the event queue or leaves the queue as
it was. The digital and the analog driver move to the state they reported, and
only then; the encoder counts an edge whether or not its report was queued.
-/
import KaizenStation.Firmware.Drivers

namespace KaizenStation.Firmware

namespace DigitalInput

/-- The wiring of a driver, which no poll changes. -/
structure SameWiring (d d' : DigitalInput) : Prop where
  sourceId : d'.sourceId = d.sourceId
  activeEvent : d'.activeEvent = d.activeEvent
  inactiveEvent : d'.inactiveEvent = d.inactiveEvent
  debounceMs : d'.debounceMs = d.debounceMs

theorem SameWiring.trans {d d' d'' : DigitalInput} (h : d.SameWiring d')
    (h' : d'.SameWiring d'') : d.SameWiring d'' :=
  ⟨h'.sourceId.trans h.sourceId, h'.activeEvent.trans h.activeEvent,
    h'.inactiveEvent.trans h.inactiveEvent, h'.debounceMs.trans h.debounceMs⟩

theorem sample_wiring (d : DigitalInput) (rawState : Bool) (now : UInt64) :
    d.SameWiring (d.sample rawState now) := by
  unfold sample
  split <;> exact ⟨rfl, rfl, rfl, rfl⟩

theorem sample_reported (d : DigitalInput) (rawState : Bool) (now : UInt64) :
    (d.sample rawState now).stableState = d.stableState ∧
      (d.sample rawState now).initialEventPending = d.initialEventPending := by
  unfold sample
  split <;> exact ⟨rfl, rfl⟩

theorem stateEvent_wiring {d d' : DigitalInput} (h : d.SameWiring d') (newState : Bool)
    (stamp : UInt64) : d'.stateEvent newState stamp = d.stateEvent newState stamp := by
  simp only [stateEvent, h.sourceId, h.activeEvent, h.inactiveEvent]

/-- A poll either queues the raw state, and reports it from then on, or
changes neither the queue nor the reported state. -/
theorem update_cases (d : DigitalInput) (eventQueue : EventQueue) (level : Nat)
    (now stamp : UInt64) :
    d.SameWiring (d.update eventQueue level now stamp).1 ∧
    (((d.update eventQueue level now stamp).2 = eventQueue ∧
        (d.update eventQueue level now stamp).1.stableState = d.stableState ∧
        (d.update eventQueue level now stamp).1.initialEventPending = d.initialEventPending) ∨
      ((d.update eventQueue level now stamp).2 =
          (eventQueue.send (d.stateEvent (readRawState level) stamp)).1 ∧
        (d.update eventQueue level now stamp).2.items =
          eventQueue.items ++ [d.stateEvent (readRawState level) stamp] ∧
        (d.update eventQueue level now stamp).1.stableState = readRawState level ∧
        (d.update eventQueue level now stamp).1.initialEventPending = false)) := by
  have hw := d.sample_wiring (readRawState level) now
  obtain ⟨hstable, hpending⟩ := d.sample_reported (readRawState level) now
  have hev := stateEvent_wiring hw (readRawState level) stamp
  unfold update publishStateChange
  simp only [hev]
  split
  · rcases eventQueue.send_cases (d.stateEvent (readRawState level) stamp) with
      ⟨_, hsent, hitems⟩ | ⟨_, hsent, hsame⟩
    · rw [if_pos hsent]
      exact ⟨⟨hw.sourceId, hw.activeEvent, hw.inactiveEvent, hw.debounceMs⟩,
        .inr ⟨rfl, hitems, rfl, rfl⟩⟩
    · rw [if_neg (by simp [hsent])]
      exact ⟨hw, .inl ⟨hsame, hstable, hpending⟩⟩
  · exact ⟨hw, .inl ⟨rfl, hstable, hpending⟩⟩

end DigitalInput

namespace RotaryEncoder

/-- A poll either counts one edge and offers the new count to the queue, or
changes neither. -/
theorem update_cases (e : RotaryEncoder) (eventQueue : EventQueue) (levelA levelB : Nat)
    (stamp : UInt64) :
    (e.update eventQueue levelA levelB stamp).1.sourceId = e.sourceId ∧
    (((e.update eventQueue levelA levelB stamp).2 = eventQueue ∧
        (e.update eventQueue levelA levelB stamp).1.count = e.count) ∨
      ((e.update eventQueue levelA levelB stamp).1.count ≠ e.count ∧
        (e.update eventQueue levelA levelB stamp).2 = (eventQueue.send
          ((e.update eventQueue levelA levelB stamp).1.countEvent stamp)).1)) := by
  unfold update publishCount
  simp only
  split
  · exact ⟨rfl, .inl ⟨rfl, rfl⟩⟩
  · split
    · exact ⟨rfl, .inl ⟨rfl, rfl⟩⟩
    · next hmove =>
      split
      · exact ⟨rfl, .inl ⟨rfl, rfl⟩⟩
      · refine ⟨rfl, .inr ⟨fun h => hmove ?_, rfl⟩⟩
        have h' : e.count + movement e.previousState (readState levelA levelB) = e.count := h
        exact Int32.add_eq_left.mp h'

end RotaryEncoder

namespace AnalogInput

/-- A poll either queues the percentage of its sample, and reports it from
then on, or changes nothing. -/
theorem update_cases (a : AnalogInput) (eventQueue : EventQueue) (sample : Option Int32)
    (stamp : UInt64) :
    ((a.update eventQueue sample stamp).1.sourceId = a.sourceId) ∧
    (((a.update eventQueue sample stamp).2 = eventQueue ∧
        (a.update eventQueue sample stamp).1 = a) ∨
      ∃ rawValue, sample = some rawValue ∧
        (a.update eventQueue sample stamp).2 =
          (eventQueue.send (a.valueEvent (rawToPercent rawValue) stamp)).1 ∧
        (a.update eventQueue sample stamp).2.items =
          eventQueue.items ++ [a.valueEvent (rawToPercent rawValue) stamp] ∧
        (a.update eventQueue sample stamp).1.stablePercent = rawToPercent rawValue ∧
        (a.update eventQueue sample stamp).1.initialEventPending = false) := by
  unfold update publishValue
  split
  · exact ⟨rfl, .inl ⟨rfl, rfl⟩⟩
  · cases sample with
    | none => exact ⟨rfl, .inl ⟨rfl, rfl⟩⟩
    | some rawValue =>
      simp only
      split
      · exact ⟨rfl, .inl ⟨rfl, rfl⟩⟩
      · rcases eventQueue.send_cases (a.valueEvent (rawToPercent rawValue) stamp) with
          ⟨_, hsent, hitems⟩ | ⟨_, hsent, hsame⟩
        · rw [if_pos hsent]
          exact ⟨rfl, .inr ⟨rawValue, rfl, rfl, hitems, rfl, rfl⟩⟩
        · rw [if_neg (by simp [hsent])]
          exact ⟨rfl, .inl ⟨hsame, rfl⟩⟩

theorem clamp_toInt (rawValue : Int32) :
    (clamp rawValue 0 ADC_MAX_VALUE).toInt = max 0 (min rawValue.toInt 4095) := by
  have hzero : (0 : Int32).toInt = 0 := by decide
  have hmax : ADC_MAX_VALUE.toInt = 4095 := by decide
  unfold clamp
  split
  · next hlow =>
    rw [Int32.lt_iff_toInt_lt, hzero] at hlow
    omega
  · next hlow =>
    rw [Int32.lt_iff_toInt_lt, hzero] at hlow
    split
    · next hhigh =>
      rw [Int32.lt_iff_toInt_lt, hmax] at hhigh
      omega
    · next hhigh =>
      rw [Int32.lt_iff_toInt_lt, hmax] at hhigh
      omega

/-- The product of the scaling does not overflow. -/
theorem scaled_toInt (rawValue : Int32) :
    (clamp rawValue 0 ADC_MAX_VALUE * 100).toInt = max 0 (min rawValue.toInt 4095) * 100 := by
  have hclamp := clamp_toInt rawValue
  rw [Int32.toInt_mul, hclamp]
  exact Int.bmod_eq_of_le (by simp; omega) (by simp; omega)

theorem rawToPercent_toInt (rawValue : Int32) :
    (rawToPercent rawValue).toInt = max 0 (min rawValue.toInt 4095) * 100 / 4095 := by
  have hmax : ADC_MAX_VALUE.toInt = 4095 := by decide
  rw [rawToPercent, Int32.toInt_div_of_ne_right _ _ (by decide), scaled_toInt, hmax,
    Int.tdiv_eq_ediv_of_nonneg (by omega)]

/-- A percentage lies between 0 and 100, for every sample. -/
theorem rawToPercent_range (rawValue : Int32) :
    0 ≤ rawToPercent rawValue ∧ rawToPercent rawValue ≤ 100 := by
  have hzero : (0 : Int32).toInt = 0 := by decide
  have hhundred : (100 : Int32).toInt = 100 := by decide
  rw [Int32.le_iff_toInt_le, Int32.le_iff_toInt_le, hzero, hhundred, rawToPercent_toInt]
  omega

end AnalogInput

end KaizenStation.Firmware
