/-
KaizenStation.Firmware.QuadratureTheorems — what the encoder counts.

The two channels go round a cycle of four states. The transition table says
how a step lies on that cycle (`movement_toInt`): along it, against it, or
neither. So the count of a run is the net number of steps of a walk, unless
it meets a limit (`run_count`), and a walk that is taken back step by step
leaves the encoder as it was (`run_back`).
-/
import KaizenStation.Foundation.Invariant
import KaizenStation.Foundation.Walk
import KaizenStation.Firmware.Polling

namespace KaizenStation.Firmware

open KaizenStation.Foundation

namespace RotaryEncoder

/-! ## The cycle -/

/-- 00 → 10 → 11 → 01 → 00, with channel A as the high bit. -/
def Along (s t : Fin 4) : Prop := (s.val, t.val) ∈ [(0, 2), (2, 3), (3, 1), (1, 0)]

def Against (s t : Fin 4) : Prop := Along t s

/-- Both channels change at once. -/
def Jump (s t : Fin 4) : Prop := s.val ^^^ t.val = 3

instance : DecidableRel Along := fun s t => inferInstanceAs
  (Decidable ((s.val, t.val) ∈ [(0, 2), (2, 3), (3, 1), (1, 0)]))

instance : DecidableRel Against := fun s t => inferInstanceAs (Decidable (Along t s))

instance : DecidableRel Jump := fun s t => inferInstanceAs (Decidable (s.val ^^^ t.val = 3))

/-- How far round the cycle a state lies. -/
def position : Fin 4 → Int
  | 0 => 0
  | 2 => 1
  | 3 => 2
  | 1 => 3

theorem movement_toInt (s t : Fin 4) : (movement s t).toInt = Walk.worth Along Against s t := by
  revert s t
  decide

theorem worth_modEq_four {s t : Fin 4} (h : ¬ Jump s t) :
    Walk.worth Along Against s t ≡ position t - position s [ZMOD 4] := by
  revert s t
  decide

/-- A jump goes half round the cycle. -/
theorem worth_modEq_two (s t : Fin 4) :
    Walk.worth Along Against s t ≡ position t - position s [ZMOD 2] := by
  revert s t
  decide

theorem movement_jump {s t : Fin 4} (h : Jump s t) : movement s t = 0 := by
  revert s t
  decide

theorem worth_range (s t : Fin 4) :
    -1 ≤ Walk.worth Along Against s t ∧ Walk.worth Along Against s t ≤ 1 := by
  revert s t
  decide

theorem worth_symm (s t : Fin 4) :
    Walk.worth Along Against t s = - Walk.worth Along Against s t := by
  revert s t
  decide

/-! ## One poll -/

theorem count_range (e : RotaryEncoder) : -2 ^ 31 ≤ e.count.toInt ∧ e.count.toInt < 2 ^ 31 :=
  ⟨e.count.le_toInt, e.count.toInt_lt⟩

theorem saturated_iff (e : RotaryEncoder) (m : Int32) :
    e.saturated m = true ↔
      0 < m.toInt ∧ e.count.toInt = 2 ^ 31 - 1 ∨ m.toInt < 0 ∧ e.count.toInt = -2 ^ 31 := by
  have hmax : e.count = Int32.maxValue ↔ e.count.toInt = 2 ^ 31 - 1 :=
    ⟨fun h => by rw [h]; decide, fun h => Int32.toInt_inj.mp (h.trans (by decide))⟩
  have hmin : e.count = Int32.minValue ↔ e.count.toInt = -2 ^ 31 :=
    ⟨fun h => by rw [h]; decide, fun h => Int32.toInt_inj.mp (h.trans (by decide))⟩
  have hzero : (0 : Int32).toInt = 0 := by decide
  unfold saturated
  rw [decide_eq_true_iff, hmax, hmin, gt_iff_lt, Int32.lt_iff_toInt_lt, Int32.lt_iff_toInt_lt,
    hzero]

@[simp] theorem moved_previousState (e : RotaryEncoder) (state : Fin 4) :
    (e.moved state).previousState = state := by
  unfold moved
  split <;> rfl

theorem moved_of_saturated {e : RotaryEncoder} {state : Fin 4}
    (h : e.saturated (movement e.previousState state) = true) :
    (e.moved state).count = e.count := by
  rw [moved, if_pos h]

/-- Below its limits a count moves by what the step counts. -/
theorem moved_count {e : RotaryEncoder} {state : Fin 4}
    (h : ¬ e.saturated (movement e.previousState state) = true) :
    (e.moved state).count.toInt =
      e.count.toInt + Walk.worth Along Against e.previousState state := by
  have hworth := worth_range e.previousState state
  have hrange := e.count_range
  rw [moved, if_neg h]
  rw [saturated_iff, movement_toInt] at h
  show (e.count + movement e.previousState state).toInt = _
  rw [Int32.toInt_add, movement_toInt]
  exact Int.bmod_eq_of_le (by omega) (by omega)

theorem polled_previousState (e : RotaryEncoder) (sample : EncoderSample) :
    (e.polled sample).1.previousState = sample.state := by
  rw [polled_eq, moved_previousState]

/-- A poll counts one at most, so the count cannot wrap. -/
theorem polled_count_range (e : RotaryEncoder) (sample : EncoderSample) :
    -1 ≤ (e.polled sample).1.count.toInt - e.count.toInt ∧
      (e.polled sample).1.count.toInt - e.count.toInt ≤ 1 := by
  have hworth := worth_range e.previousState sample.state
  rw [polled_eq]
  by_cases h : e.saturated (movement e.previousState sample.state) = true
  · rw [moved_of_saturated h]
    omega
  · rw [moved_count h]
    omega

/-- A poll hands the new count to the queue if it is new, and nothing else. -/
theorem polled_queue (e : RotaryEncoder) (sample : EncoderSample) :
    (e.polled sample).2 =
      if (e.polled sample).1.count = e.count then sample.eventQueue
      else (sample.eventQueue.send ((e.polled sample).1.countEvent sample.stamp)).1 := by
  have h := (update_offer e sample.eventQueue sample.levelA sample.levelB sample.stamp).2
  rw [polled_eq]
  by_cases hcount : (e.moved sample.state).count = e.count
  · have hoffer : e.offer (readState sample.levelA sample.levelB) sample.stamp = none :=
      if_pos hcount
    rw [hoffer] at h
    rw [if_pos hcount]
    exact h
  · have hoffer : e.offer (readState sample.levelA sample.levelB) sample.stamp =
        some ((e.moved sample.state).countEvent sample.stamp) := if_neg hcount
    rw [hoffer] at h
    rw [if_neg hcount]
    exact h

theorem polled_jump {e : RotaryEncoder} {sample : EncoderSample}
    (h : Jump e.previousState sample.state) :
    (e.polled sample).1.count = e.count ∧ (e.polled sample).2 = sample.eventQueue := by
  have hcount : (e.polled sample).1.count = e.count := by
    rw [polled_eq, moved, movement_jump h]
    split <;> simp
  exact ⟨hcount, by rw [polled_queue, if_pos hcount]⟩

/-- Two polls there and back. -/
theorem moved_back {e : RotaryEncoder} {state : Fin 4}
    (h : ¬ e.saturated (movement e.previousState state) = true) :
    (e.moved state).moved e.previousState = e := by
  have hthere := moved_count h
  have hrange := e.count_range
  have hsymm := worth_symm e.previousState state
  have hback : ¬ (e.moved state).saturated
      (movement (e.moved state).previousState e.previousState) = true := by
    rw [saturated_iff, movement_toInt, moved_previousState, hsymm, hthere]
    omega
  have hcount : ((e.moved state).moved e.previousState).count = e.count := by
    rw [← Int32.toInt_inj, moved_count hback, moved_previousState, hsymm, hthere]
    omega
  have hsource : ((e.moved state).moved e.previousState).sourceId = e.sourceId := by
    unfold moved
    split <;> split <;> rfl
  have hstate := moved_previousState (e.moved state) e.previousState
  generalize (e.moved state).moved e.previousState = e' at hcount hsource hstate
  cases e
  cases e'
  simp_all

/-! ## Runs -/

/-- The poll finds the count at its limit. -/
def Saturates (e : RotaryEncoder) (sample : EncoderSample) : Prop :=
  e.saturated (movement e.previousState sample.state) = true

/-- No poll of the run does. -/
def NeverSaturates (e : RotaryEncoder) (samples : List EncoderSample) : Prop :=
  NeverBad (fun e sample => (e.polled sample).1) Saturates e samples

theorem polled_count {e : RotaryEncoder} {sample : EncoderSample} (h : ¬ e.Saturates sample) :
    (e.polled sample).1.count.toInt =
      e.count.toInt + Walk.worth Along Against e.previousState sample.state := by
  rw [polled_eq]
  exact moved_count h

/-- The net number of steps along the cycle. -/
def steps (e : RotaryEncoder) (samples : List EncoderSample) : Int :=
  Walk.net Along Against e.previousState (samples.map EncoderSample.state)

theorem run_cons (e : RotaryEncoder) (sample : EncoderSample) (samples : List EncoderSample) :
    e.run (sample :: samples) = ((e.polled sample).1).run samples := rfl

theorem steps_cons (e : RotaryEncoder) (sample : EncoderSample) (samples : List EncoderSample) :
    e.steps (sample :: samples) = Walk.worth Along Against e.previousState sample.state +
      (e.polled sample).1.steps samples := by
  unfold steps
  rw [List.map_cons, Walk.net_cons, polled_previousState]

theorem run_previousState (e : RotaryEncoder) (samples : List EncoderSample) :
    (e.run samples).previousState =
      Walk.stop e.previousState (samples.map EncoderSample.state) := by
  induction samples generalizing e with
  | nil => rfl
  | cons sample samples ih =>
    rw [run_cons, ih, polled_previousState, List.map_cons, Walk.stop_cons]

/-- Below the limits the count is the net number of steps. -/
theorem run_count {e : RotaryEncoder} {samples : List EncoderSample}
    (h : e.NeverSaturates samples) :
    (e.run samples).count.toInt = e.count.toInt + e.steps samples := by
  induction samples generalizing e with
  | nil => simp [run, steps]
  | cons sample samples ih =>
    obtain ⟨hfirst, hrest⟩ := neverBad_cons.mp h
    rw [run_cons, ih hrest, polled_count hfirst, steps_cons]
    omega

/-- A run whose running total fits into the count meets no limit. -/
theorem neverSaturates_of_total {e : RotaryEncoder} {samples : List EncoderSample}
    (h : ∀ before after, samples = before ++ after →
      -2 ^ 31 ≤ e.count.toInt + e.steps before ∧ e.count.toInt + e.steps before < 2 ^ 31) :
    e.NeverSaturates samples := by
  induction samples generalizing e with
  | nil => exact neverBad_nil
  | cons sample samples ih =>
    have hone := h [sample] samples rfl
    rw [steps_cons] at hone
    have hnil : (e.polled sample).1.steps [] = 0 := by simp [steps]
    have hfirst : ¬ e.Saturates sample := by
      unfold Saturates
      rw [saturated_iff, movement_toInt]
      omega
    refine neverBad_cons.mpr ⟨hfirst, ih fun before after hsplit => ?_⟩
    have hnext := h (sample :: before) after (by rw [hsplit]; rfl)
    rw [steps_cons] at hnext
    rw [polled_count hfirst]
    omega

/-- Taking a walk back step by step takes back the whole run. -/
theorem run_back {e : RotaryEncoder} {samples back : List EncoderSample}
    (h : e.NeverSaturates samples)
    (hback : back.map EncoderSample.state =
      Walk.back e.previousState (samples.map EncoderSample.state)) :
    e.run (samples ++ back) = e := by
  induction samples using List.reverseRecOn generalizing back with
  | nil =>
    rw [List.map_nil, Walk.back_nil, List.map_eq_nil_iff] at hback
    rw [hback]
    rfl
  | append_singleton samples sample ih =>
    rw [List.map_append, List.map_singleton, Walk.back_append_singleton] at hback
    obtain ⟨first, rest, rfl, hfirst, hrest⟩ := List.map_eq_cons_iff.mp hback
    have hbefore : e.NeverSaturates samples := fun before input after hsplit =>
      h before input (after ++ [sample]) (by rw [hsplit]; simp)
    have hlast : ¬ (e.run samples).Saturates sample := h samples sample [] rfl
    rw [← run_previousState] at hfirst
    have hreturn : ((((e.run samples).polled sample).1).polled first).1 = e.run samples := by
      rw [polled_eq, polled_eq, hfirst]
      exact moved_back hlast
    calc e.run (samples ++ [sample] ++ first :: rest)
        = ((((e.run samples).polled sample).1).polled first).1.run rest := by
          rw [run_append, run_append]
          rfl
      _ = e.run (samples ++ rest) := by rw [hreturn, run_append]
      _ = e := ih hbefore hrest

/-! ## The result -/

/-- Whatever is sampled: if the running total fits into the count, the count
is the number of steps along the cycle less the number against it; it follows
the position of the state round the cycle if no sample jumps, and a path with
the way back restores it. Jumps count nothing and report nothing, and unless
the count meets a limit its parity is that of the position. In any run the
count moves by one at most, without wrapping, and it is reported exactly when
it moves. -/
theorem quadrature_tracking (e : RotaryEncoder) (samples : List EncoderSample) :
    let start := e.previousState
    let path := samples.map EncoderSample.state
    let count' := (e.run samples).count.toInt
    ((∀ before after, samples = before ++ after →
        -2 ^ 31 ≤ e.count.toInt + e.steps before ∧ e.count.toInt + e.steps before < 2 ^ 31) →
      count' = e.count.toInt +
        ((Walk.tally Along start path : Int) - (Walk.tally Against start path : Int)) ∧
      ((∀ s ∈ Walk.steps start path, ¬ Jump s.1 s.2) →
        count' - e.count.toInt ≡ position (Walk.stop start path) - position start [ZMOD 4]) ∧
      ∀ back, back.map EncoderSample.state = Walk.back start path →
        (e.run (samples ++ back)).count = e.count) ∧
    (e.NeverSaturates samples →
      count' - e.count.toInt ≡ position (Walk.stop start path) - position start [ZMOD 2]) ∧
    ∀ before sample after, samples = before ++ sample :: after →
      let e := e.run before
      let e' := (e.polled sample).1
      (Jump e.previousState sample.state →
        e'.count = e.count ∧ (e.polled sample).2 = sample.eventQueue) ∧
      (-1 ≤ e'.count.toInt - e.count.toInt ∧ e'.count.toInt - e.count.toInt ≤ 1) ∧
      (e.polled sample).2 = if e'.count = e.count then sample.eventQueue
        else (sample.eventQueue.send (e'.countEvent sample.stamp)).1 := by
  intro start path count'
  refine ⟨fun htotal => ?_, fun hnever => ?_, fun before sample _ _ => ?_⟩
  · have hnever := neverSaturates_of_total htotal
    have hcount : count' = e.count.toInt + e.steps samples := run_count hnever
    refine ⟨hcount, fun hsmooth => ?_, fun back hback => ?_⟩
    · have hnet := Walk.net_modEq fun s hs => worth_modEq_four (hsmooth s hs)
      rwa [hcount, add_sub_cancel_left]
    · rw [run_back hnever hback]
  · have hcount : count' = e.count.toInt + e.steps samples := run_count hnever
    have hnet : Walk.net Along Against start path ≡
        position (Walk.stop start path) - position start [ZMOD 2] :=
      Walk.net_modEq fun s _ => worth_modEq_two s.1 s.2
    rwa [hcount, add_sub_cancel_left]
  · exact ⟨polled_jump, polled_count_range _ sample, polled_queue _ sample⟩

end RotaryEncoder

end KaizenStation.Firmware
