/-
KaizenStation.Firmware.DeadbandTheorems — what the analog input reports.

A percentage is news if it lies the deadband from the last one reported, and
at least one percent, so the driver is a `Reporter` (`Reporting`). The
scaling is exact for every sample (`rawToPercent_toInt`), and so is the
difference of two percentages (`unchanged_iff`).
-/
import KaizenStation.Foundation.Reporter
import KaizenStation.Firmware.DriverTheorems
import KaizenStation.Firmware.Polling

namespace KaizenStation.Firmware

open KaizenStation.Foundation

namespace AnalogInput

/-! ## The scaling -/

theorem rawToPercent_monotone {rawValue rawValue' : Int32} (h : rawValue ≤ rawValue') :
    rawToPercent rawValue ≤ rawToPercent rawValue' := by
  rw [Int32.le_iff_toInt_le] at h ⊢
  rw [rawToPercent_toInt, rawToPercent_toInt]
  omega

/-- A number of percent. -/
def Percentage (x : Int32) : Prop := 0 ≤ x.toInt ∧ x.toInt ≤ 100

theorem rawToPercent_percentage (rawValue : Int32) : Percentage (rawToPercent rawValue) := by
  unfold Percentage
  rw [rawToPercent_toInt]
  omega

/-! ## The deadband -/

/-- The smallest change that is reported. -/
def band (deadbandPercent : UInt8) : Int := max 1 deadbandPercent.toNat

/-- Far enough apart for a report. -/
def Apart (deadbandPercent : UInt8) (y x : Int32) : Prop :=
  band deadbandPercent ≤ |x.toInt - y.toInt|

instance (deadbandPercent : UInt8) : DecidableRel (Apart deadbandPercent) :=
  fun y x => inferInstanceAs (Decidable (band deadbandPercent ≤ |x.toInt - y.toInt|))

theorem not_apart_self (deadbandPercent : UInt8) (x : Int32) : ¬ Apart deadbandPercent x x := by
  simp [Apart, band]

theorem abs_sub_toInt {x y : Int32} (hx : Percentage x) (hy : Percentage y) :
    (x - y).abs.toInt = |x.toInt - y.toInt| := by
  obtain ⟨hx0, hx100⟩ := hx
  obtain ⟨hy0, hy100⟩ := hy
  have hsub : (x - y).toInt = x.toInt - y.toInt := by
    rw [Int32.toInt_sub]
    exact Int.bmod_eq_of_le (by omega) (by omega)
  have hmin : (x - y).toBitVec ≠ BitVec.intMin 32 := by
    intro h
    have hlow : (x - y).toInt = -2 ^ 31 := congrArg BitVec.toInt h
    omega
  have habs : (x - y).abs.toInt = (x - y).toInt.natAbs :=
    BitVec.toInt_abs_eq_natAbs_of_ne_intMin hmin
  rw [habs, hsub, Int.abs_eq_natAbs]

/-- The early return of `update` asks whether the percentage is too near. -/
theorem unchanged_iff {a : AnalogInput} (hpending : a.initialEventPending = false) {x : Int32}
    (hx : Percentage x) (hstable : Percentage a.stablePercent) :
    a.unchanged x = true ↔ ¬ Apart a.deadbandPercent a.stablePercent x := by
  have hband : (Int32.ofNat a.deadbandPercent.toNat).toInt = a.deadbandPercent.toNat :=
    Int32.toInt_ofNat_of_lt (by have := a.deadbandPercent.toNat_lt; omega)
  have hsame : x = a.stablePercent ↔ |x.toInt - a.stablePercent.toInt| = 0 := by
    rw [abs_eq_zero, sub_eq_zero, Int32.toInt_inj]
  have hpositive := abs_nonneg (x.toInt - a.stablePercent.toInt)
  unfold unchanged Apart band
  rw [hpending, Bool.not_false, Bool.true_and, Bool.or_eq_true, beq_iff_eq, decide_eq_true_iff,
    Int32.lt_iff_toInt_lt, abs_sub_toInt hx hstable, hband, hsame]
  omega

/-! ## The reports -/

section Samples

variable (a : AnalogInput) (rawValue₀ : Int32) (samples : Nat → AnalogSample)

/-- The percentage that poll `k` read. -/
def candidate (k : Nat) : Option Int32 := (samples k).rawValue.map rawToPercent

/-- The percentages reported up to poll `k`. -/
def reported (k : Nat) : List Int32 :=
  Reporter.reports (Apart a.deadbandPercent) (candidate samples)
    (fun i => (samples i).eventQueue.hasRoom) k

theorem reported_succ (k : Nat) :
    a.reported samples (k + 1) =
      if (samples (k + 1)).eventQueue.hasRoom then
        a.reported samples k ++ (Reporter.offered (Apart a.deadbandPercent) (a.reported samples k)
          (candidate samples (k + 1))).toList
      else a.reported samples k := rfl

theorem after_succ (k : Nat) :
    a.after rawValue₀ samples (k + 1) =
      match a.offers rawValue₀ samples (k + 1) with
      | some event =>
        if (samples (k + 1)).eventQueue.hasRoom then
          { a.after rawValue₀ samples k with
            stablePercent := event.value
            initialEventPending := false }
        else a.after rawValue₀ samples k
      | none => a.after rawValue₀ samples k :=
  (update_offer (a.after rawValue₀ samples k) (samples (k + 1)).eventQueue
    (samples (k + 1)).rawValue (samples (k + 1)).stamp).2

/-- `e` is the initialized driver with these reports behind it. -/
structure Reporting (reports : List Int32) (e : AnalogInput) : Prop where
  sourceId : e.sourceId = a.sourceId
  deadbandPercent : e.deadbandPercent = a.deadbandPercent
  initialized : e.initialized = true
  pending : e.initialEventPending = reports.isEmpty
  stable : ∀ x ∈ reports.getLast?, e.stablePercent = x
  percentage : Percentage e.stablePercent

variable {a rawValue₀ samples}

/-- The test of `update` asks for news. -/
theorem Reporting.unchanged_iff {reports : List Int32} {e : AnalogInput}
    (h : Reporting a reports e) {x : Int32} (hx : Percentage x) :
    e.unchanged x = true ↔ ¬ Reporter.News (Apart a.deadbandPercent) reports x := by
  unfold Reporter.News
  cases hlast : reports.getLast? with
  | none =>
    have hpending : e.initialEventPending = true := by
      rw [h.pending, List.getLast?_eq_none_iff.mp hlast, List.isEmpty_nil]
    simp [unchanged, hpending]
  | some y =>
    have hpending : e.initialEventPending = false := by
      rw [h.pending]
      cases reports with
      | nil => cases hlast
      | cons => rfl
    rw [AnalogInput.unchanged_iff hpending hx h.percentage, h.deadbandPercent, h.stable y hlast]
    simp

/-- A poll offers what the reporter offers. -/
theorem Reporting.offer {reports : List Int32} {e : AnalogInput} (h : Reporting a reports e)
    (rawValue : Option Int32) (stamp : UInt64) :
    e.offer rawValue stamp =
      (Reporter.offered (Apart a.deadbandPercent) reports (rawValue.map rawToPercent)).map
        fun x => a.valueEvent x stamp := by
  unfold AnalogInput.offer
  rw [h.initialized]
  cases rawValue with
  | none => rfl
  | some rawValue =>
    have hunchanged := h.unchanged_iff (rawToPercent_percentage rawValue)
    have hevent : e.valueEvent (rawToPercent rawValue) stamp =
        a.valueEvent (rawToPercent rawValue) stamp := by
      simp [valueEvent, h.sourceId]
    by_cases hnews : Reporter.News (Apart a.deadbandPercent) reports (rawToPercent rawValue)
    · rw [Option.map_some, Reporter.offered_of_news hnews]
      simp [mt hunchanged.mp (not_not_intro hnews), hevent]
    · rw [Option.map_some, Reporter.offered_of_not_news hnews]
      simp [hunchanged.mpr hnews]

theorem after_reporting (hfresh : a.initialEventPending = true) (k : Nat) :
    Reporting a (a.reported samples k) (a.after rawValue₀ samples k) := by
  induction k with
  | zero =>
    exact ⟨rfl, rfl, rfl, hfresh, fun _ hx => (nomatch hx), rawToPercent_percentage rawValue₀⟩
  | succ k ih =>
    have hoffers : a.offers rawValue₀ samples (k + 1) =
        (Reporter.offered (Apart a.deadbandPercent) (a.reported samples k)
          (candidate samples (k + 1))).map fun x => a.valueEvent x (samples (k + 1)).stamp :=
      ih.offer (samples (k + 1)).rawValue (samples (k + 1)).stamp
    rw [after_succ, hoffers, reported_succ]
    cases hoff : Reporter.offered (Apart a.deadbandPercent) (a.reported samples k)
        (candidate samples (k + 1)) with
    | none => simpa using ih
    | some x =>
      obtain ⟨rawValue, -, hx⟩ := Option.map_eq_some_iff.mp (Reporter.offered_eq_some.mp hoff).1
      cases (samples (k + 1)).eventQueue.hasRoom with
      | false => exact ih
      | true =>
        refine ⟨ih.sourceId, ih.deadbandPercent, ih.initialized, by simp, ?_, ?_⟩
        · simp [valueEvent]
        · rw [← hx]
          exact rawToPercent_percentage rawValue

theorem offers_succ (hfresh : a.initialEventPending = true) (k : Nat) :
    a.offers rawValue₀ samples (k + 1) =
      (Reporter.offered (Apart a.deadbandPercent) (a.reported samples k)
        (candidate samples (k + 1))).map fun x => a.valueEvent x (samples (k + 1)).stamp :=
  (after_reporting hfresh k).offer (samples (k + 1)).rawValue (samples (k + 1)).stamp

variable (a rawValue₀ samples) in
theorem queued_reported (hfresh : a.initialEventPending = true) (k : Nat) :
    List.Forall₂ (fun event x => ∃ i, event = a.valueEvent x (samples i).stamp)
      (a.queued rawValue₀ samples k) (a.reported samples k) :=
  taken_reports (fun i x => a.valueEvent x (samples i).stamp) (fun k => offers_succ hfresh k) k

theorem queued_values (hfresh : a.initialEventPending = true) (k : Nat) :
    (a.queued rawValue₀ samples k).map Event.value = a.reported samples k := by
  have hvalues := map_taken Event.value id (queued_reported a rawValue₀ samples hfresh k)
    fun _ _ => rfl
  rwa [List.map_id] at hvalues

theorem offers_percentage (hfresh : a.initialEventPending = true) {k : Nat} {event : Event}
    (h : event ∈ a.offers rawValue₀ samples k) :
    Percentage event.value ∧
      ∃ rawValue, (samples k).rawValue = some rawValue ∧ event.value = rawToPercent rawValue := by
  cases k with
  | zero => cases h
  | succ k =>
    rw [offers_succ hfresh] at h
    obtain ⟨x, hx, rfl⟩ := Option.map_eq_some_iff.mp h
    obtain ⟨rawValue, hread, rfl⟩ := Option.map_eq_some_iff.mp (Reporter.offered_eq_some.mp hx).1
    exact ⟨rawToPercent_percentage rawValue, rawValue, hread, rfl⟩

/-- The event of poll `k` was not queued. -/
def Refused (a : AnalogInput) (rawValue₀ : Int32) (samples : Nat → AnalogSample) (k : Nat) : Prop :=
  ∃ event ∈ a.offers rawValue₀ samples k, ((samples k).eventQueue.send event).2 = false

theorem Refused.full {k : Nat} (h : Refused a rawValue₀ samples k) :
    (samples k).eventQueue.hasRoom = false := by
  obtain ⟨event, -, hsent⟩ := h
  rwa [EventQueue.send_room] at hsent

/-- A sample that was read and not refused lies near the last report. -/
theorem read_near (hfresh : a.initialEventPending = true) {k : Nat} {rawValue : Int32}
    (hread : (samples (k + 1)).rawValue = some rawValue)
    (haccepted : ¬ Refused a rawValue₀ samples (k + 1)) :
    let valuePercent := (a.after rawValue₀ samples (k + 1)).valuePercent
    |(rawToPercent rawValue).toInt - valuePercent.toInt| < band a.deadbandPercent ∧
      ∃ last ∈ (a.queued rawValue₀ samples (k + 1)).getLast?, last.value = valuePercent := by
  have hcandidate : candidate samples (k + 1) = some (rawToPercent rawValue) := by
    rw [candidate, hread, Option.map_some]
  have haccept : Reporter.offered (Apart a.deadbandPercent) (a.reported samples k)
      (candidate samples (k + 1)) = some (rawToPercent rawValue) →
      (samples (k + 1)).eventQueue.hasRoom = true := by
    intro hoff
    by_contra hfull
    refine haccepted ⟨a.valueEvent (rawToPercent rawValue) (samples (k + 1)).stamp, ?_, ?_⟩
    · rw [offers_succ hfresh, hoff]
      rfl
    · rw [EventQueue.send_room]
      exact Bool.eq_false_of_not_eq_true hfull
  obtain ⟨y, hlast, hnear⟩ :=
    Reporter.reported (not_apart_self a.deadbandPercent) hcandidate haccept
  have hstable : (a.after rawValue₀ samples (k + 1)).valuePercent = y :=
    (after_reporting hfresh (k + 1)).stable y hlast
  intro valuePercent
  refine ⟨not_le.mp (by rwa [show valuePercent = y from hstable]), ?_⟩
  have hqueued : (a.queued rawValue₀ samples (k + 1)).getLast?.map Event.value = some y := by
    rw [← List.getLast?_map, queued_values hfresh]
    exact hlast
  obtain ⟨last, hin, hvalue⟩ := Option.map_eq_some_iff.mp hqueued
  exact ⟨last, hin, hvalue.trans hstable.symm⟩

/-- A poll that fails to read or to queue leaves the driver as it was. -/
theorem after_idle (hfresh : a.initialEventPending = true) {k : Nat}
    (h : (samples (k + 1)).rawValue = none ∨ Refused a rawValue₀ samples (k + 1)) :
    a.after rawValue₀ samples (k + 1) = a.after rawValue₀ samples k := by
  rw [after_succ]
  rcases h with hunread | hrefused
  · have hnone : a.offers rawValue₀ samples (k + 1) = none := by
      rw [offers_succ hfresh, candidate, hunread]
      rfl
    rw [hnone]
  · rw [hrefused.full]
    cases a.offers rawValue₀ samples (k + 1) <;> rfl

theorem offered_again (hfresh : a.initialEventPending = true) {k : Nat}
    (hrefused : Refused a rawValue₀ samples (k + 1))
    (hsame : (samples (k + 2)).rawValue = (samples (k + 1)).rawValue) :
    a.offers rawValue₀ samples (k + 2) = (a.offers rawValue₀ samples (k + 1)).map
      fun event => { event with timestampMs := (samples (k + 2)).stamp } := by
  have hreports : a.reported samples (k + 1) = a.reported samples k := by
    rw [reported_succ, if_neg (by simp [hrefused.full])]
  have hcandidate : candidate samples (k + 2) = candidate samples (k + 1) := by
    rw [candidate, hsame, candidate]
  rw [offers_succ hfresh, offers_succ hfresh, hreports, hcandidate, Option.map_map]
  rfl

end Samples

/-! ## The result -/

/-- Whatever is sampled and whichever events are refused: what a new driver
offers is the percentage of the sample it just read, an exact and monotone
scaling to 0..100. The queued percentages lie a deadband apart, and at least
one percent. After a poll whose event, if it had one, was queued, the sample
lies within the deadband of the last one queued; a poll that fails to read or
to queue leaves the driver as it was, and it offers the same sample again. A
poll leaves the queue as it is, but for the event that it offers. -/
theorem deadband_reports (sourceId : UInt32) (deadbandPercent : UInt8) (rawValue₀ : Int32)
    (samples : Nat → AnalogSample) :
    let a := create sourceId deadbandPercent
    let offers := a.offers rawValue₀ samples
    let queued := a.queued rawValue₀ samples
    let after := a.after rawValue₀ samples
    let refused := a.Refused rawValue₀ samples
    (∀ k, ∀ event ∈ queued k, ∃ i ≤ k, event ∈ offers i) ∧
    (∀ k, ∀ event ∈ offers k, Percentage event.value ∧
      ∃ rawValue, (samples k).rawValue = some rawValue ∧ event.value = rawToPercent rawValue) ∧
    (∀ rawValue,
      (clamp rawValue 0 ADC_MAX_VALUE * 100).toInt =
        (clamp rawValue 0 ADC_MAX_VALUE).toInt * 100 ∧
      (rawToPercent rawValue).toInt = max 0 (min rawValue.toInt 4095) * 100 / 4095) ∧
    (∀ rawValue rawValue', rawValue ≤ rawValue' →
      rawToPercent rawValue ≤ rawToPercent rawValue') ∧
    (∀ k, ((queued k).map Event.value).IsChain fun y x =>
      max 1 (deadbandPercent.toNat : Int) ≤ |x.toInt - y.toInt|) ∧
    (∀ k rawValue, (samples (k + 1)).rawValue = some rawValue → ¬ refused (k + 1) →
      let valuePercent := (after (k + 1)).valuePercent
      |(rawToPercent rawValue).toInt - valuePercent.toInt| < max 1 (deadbandPercent.toNat : Int) ∧
        ∃ last ∈ (queued (k + 1)).getLast?, last.value = valuePercent) ∧
    (∀ k, (samples (k + 1)).rawValue = none ∨ refused (k + 1) → after (k + 1) = after k) ∧
    (∀ k, refused (k + 1) → (samples (k + 2)).rawValue = (samples (k + 1)).rawValue →
      offers (k + 2) = (offers (k + 1)).map fun event =>
        { event with timestampMs := (samples (k + 2)).stamp }) ∧
    ∀ k, ((after k).update (samples (k + 1)).eventQueue (samples (k + 1)).rawValue
      (samples (k + 1)).stamp).2 = (samples (k + 1)).eventQueue.offered (offers (k + 1)) := by
  intro a offers queued after refused
  have hoffers : ∀ k, offers (k + 1) = _ := fun k => offers_succ (a := a) rfl k
  refine ⟨fun k event => mem_taken, fun k event hoffer => offers_percentage rfl hoffer,
    fun rawValue => ⟨?_, rawToPercent_toInt rawValue⟩, fun _ _ => rawToPercent_monotone,
    fun k => ?_, fun k rawValue hread haccepted => ?_, fun k hidle => ?_,
    fun k hrefused hsame => ?_, fun k => update_queue _ _ _ _⟩
  · rw [scaled_toInt, clamp_toInt]
  · show List.IsChain _ ((a.queued rawValue₀ samples k).map Event.value)
    rw [queued_values rfl]
    exact Reporter.reports_chain k
  · exact read_near rfl hread haccepted
  · exact after_idle rfl hidle
  · exact offered_again rfl hrefused hsame

end AnalogInput

end KaizenStation.Firmware
