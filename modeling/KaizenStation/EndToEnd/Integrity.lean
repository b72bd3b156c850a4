/-
KaizenStation.EndToEnd.Integrity — the record shows nothing that was not
reported.

Convergence says what the record shows in the end. This module says what it
can show at any moment of any run, with messages delayed, repeated and lost
and stations restarting: in each of its mirrored fields either what it had at
the beginning, or a value that the driver of that station had reported at
some earlier moment of the run (`record_was_reported`).

`Sensor.Sourced` is the invariant on a station, for an arbitrary set of values
that contains what the driver reports; `Fleet.Vouched` adds the messages on
their way and the record.
-/
import KaizenStation.Foundation.Countdown
import KaizenStation.EndToEnd.Fleet

namespace KaizenStation.Firmware

open KaizenStation.Foundation

/-! ## The events of a station -/

namespace Sensor

variable {γ : Type} (sensor : Sensor γ) (H : γ → Prop) {p : Platform} {s s' : Station}

/-- Whatever the station has numbered or queued says only such values of the
input. -/
def Sourced (s : Station) : Prop :=
  ∀ e ∈ s.application.issued ++ s.eventQueue.items, ∀ v, sensor.value? e = some v → H v

variable {sensor H}

theorem Sourced.same (h : sensor.Sourced H s) (hq : s'.eventQueue.items = s.eventQueue.items)
    (ha : s'.application.issued = s.application.issued) : sensor.Sourced H s' := by
  rw [Sourced, hq, ha]
  exact h

theorem Sourced.append (h : sensor.Sourced H s) {event : Event}
    (hq : s'.eventQueue.items = s.eventQueue.items ++ [event])
    (ha : s'.application.issued = s.application.issued)
    (hevent : ∀ v, sensor.value? event = some v → H v) : sensor.Sourced H s' := by
  rw [Sourced, hq, ha, ← List.append_assoc]
  intro e he
  rcases List.mem_append.mp he with he | he
  · exact h e he
  · obtain rfl := List.mem_singleton.mp he
    exact hevent

/-- Numbering an event says nothing new. -/
theorem Sourced.processed (h : sensor.Sourced H s) (hr : Application.Ready p
      OFFLINE_EVENT_QUEUE_SIZE true s.application) {event : Event}
    (hevent : ∀ v, sensor.value? event = some v → H v)
    (hq : ∀ e ∈ s'.eventQueue.items, e ∈ s.eventQueue.items)
    (ha : s'.application = s.application.processEvent p event) : sensor.Sourced H s' := by
  intro e he
  rw [ha, (Application.processEvent_processed hr event).issued] at he
  rcases List.mem_append.mp he with he | he
  · rcases List.mem_append.mp he with he | he
    · exact h e (List.mem_append_left _ he)
    · split at he
      · rw [List.mem_singleton.mp he, sensor.unnumbered event s.application.nextSequenceId]
        exact hevent
      · cases he
  · exact h e (List.mem_append_right _ (hq e he))

theorem Sourced.central (h : sensor.Sourced H s) (hs : s.Healthy p) (freeHeap : UInt32) :
    sensor.Sourced H (s.central p freeHeap) := by
  unfold Station.central
  split
  · cases hq : s.eventQueue.items with
    | nil => refine h.same ?_ ?_ <;> simp [Station.receive, EventQueue.receive_nil hq]
    | cons event rest =>
      obtain ⟨hevent, hrest, -⟩ := EventQueue.receive_cons hq
      have hhead : event ∈ s.application.issued ++ s.eventQueue.items :=
        List.mem_append_right _ (hq ▸ List.mem_cons_self)
      refine h.processed hs.fed.ready (h event hhead) (fun e he => ?_)
        (by simp [Station.receive, hevent])
      have he' : e ∈ rest := hrest ▸ he
      exact hq ▸ List.mem_cons_of_mem _ he'
  · exact h.same rfl (Application.flushIfPending_advances hs.fed.ready []).untouched.issued
  · unfold Station.heartbeat
    split
    · have hbeat : ∀ v, sensor.value? (Application.heartbeat s.nowMs freeHeap) = some v → H v := by
        intro v hv
        rw [sensor.value?_foreign ⟨rfl, rfl⟩] at hv
        cases hv
      exact h.processed hs.fed.ready hbeat (fun e he => he) rfl
    · exact h.same rfl rfl

/-- A report of the driver is what it has reported afterwards. -/
theorem Sourced.step (h : sensor.Sourced H s) (hs : s.Healthy p) {act : Act} (hact : act.Quiet)
    (hnew : ∀ v, sensor.reported? (s.step p act) = some v → H v) :
    sensor.Sourced H (s.step p act) := by
  by_cases hown : act.source = sensor.source
  · have hpoll : act.source ≠ 0 := hown ▸ sensor.physical
    have ha := congrArg Application.issued (hs.tracks.polled hpoll).1
    rcases sensor.own p true s act hs.tracks hown with ⟨hq, -⟩ | ⟨event, hq, hvalue⟩
    · exact h.same hq ha
    · exact h.append hq ha (hvalue ▸ hnew)
  · by_cases hpoll : act.source = 0
    · cases act with
      | wait => exact h
      | central freeHeap => exact h.central hs freeHeap
      | post event =>
        rcases s.eventQueue.send_cases event with ⟨-, -, hitems⟩ | ⟨-, -, hsame⟩
        · refine h.append hitems rfl fun v hv => ?_
          rw [sensor.value?_foreign hact.1] at hv
          cases hv
        · exact h.same (congrArg EventQueue.items hsame) rfl
      | _ => cases hpoll
    · obtain ⟨ha, hq | ⟨event, hrep, hsource, hq⟩⟩ := hs.tracks.polled hpoll
      · exact h.same hq (congrArg Application.issued ha)
      · refine h.append hq (congrArg Application.issued ha) fun v hv => ?_
        rw [sensor.value?_other (.inl hrep) (hsource ▸ hown)] at hv
        cases hv

theorem analog_reported {v : Int32} (h : Sensor.analog.reported? s = some v) :
    s.analogInput.initialEventPending = false ∧ s.analogInput.valuePercent = v := by
  have hvalue : (if s.analogInput.initialEventPending then none else
    some s.analogInput.valuePercent) = some v := h
  split at hvalue
  · cases hvalue
  · next hpending => exact ⟨Bool.eq_false_iff.mpr hpending, Option.some.inj hvalue⟩

theorem boot_sourced (sensor : Sensor γ) (H : γ → Prop) (r : Station.Readings) :
    sensor.Sourced H (Station.boot r) := by
  intro e he
  cases he

end Sensor

end KaizenStation.Firmware

namespace KaizenStation.EndToEnd

open KaizenStation.Foundation KaizenStation.Firmware KaizenStation.Backend

/-! ## A station, its messages and its record -/

namespace Fleet

section Runs

variable {ι : Type} [DecidableEq ι] {cjson : CJson} (hc : cjson.Standard)
  {config : ι → DeviceConfig} (hcfg : ∀ i, ValidConfig (config i))
  (hdistinct : ∀ i j, i ≠ j → (config i).deviceId.text ≠ (config j).deviceId.text)
  {loads : Loads} (hl : loads.Standard) {answers : Nat → Bool}

variable {γ δ : Type} {sensor : Sensor γ} {mirror : Mirror sensor.toInput δ} {initial : δ}
  {H : γ → Prop} {f f' : Fleet ι} {i : ι}

variable (cjson config sensor mirror initial H) in
/-- Every value of the input in the queue, in the store, on its way and in the
record is the initial one or one of these. -/
structure Vouched (f : Fleet ι) (i : ι) : Prop where
  station : sensor.Sourced H (f.stations i)
  onWay : ∃ events, OnWay cjson config f i events ∧
    ∀ e ∈ events, ∀ v, sensor.value? e = some v → H v
  record : shown config mirror f i = initial ∨ ∃ v, H v ∧ shown config mirror f i = mirror.convert v

include hc hl hcfg in
omit [DecidableEq ι] in
theorem Vouched.effect (hs : f.Sane cjson config i)
    (h : Vouched cjson config sensor mirror initial H f i)
    (heffect : Effect cjson config loads answers f f' i)
    (hnew : ∀ v, sensor.reported? (f'.stations i) = some v → H v) :
    Vouched cjson config sensor mirror initial H f' i := by
  obtain ⟨events, honway, hevents⟩ := h.onWay
  cases heffect with
  | task act sent hquiet hearly hstation haccepted hchannel hsent hmiddleware =>
    have hnew' : sensor.Sourced H (f'.stations i) := by
      rw [hstation] at hnew ⊢
      exact h.station.step hs.healthy hquiet hnew
    have hhealthy : (f'.stations i).Healthy (f.platform cjson config i) :=
      hstation ▸ hs.healthy.step hquiet hearly
    refine ⟨hnew', ⟨events ++ sent, honway.send hchannel hsent, fun e he => ?_⟩, ?_⟩
    · rcases List.mem_append.mp he with he | he
      · exact hevents e he
      · refine hnew' e (List.mem_append_left _ (hhealthy.accepted_issued e ?_))
        rw [haccepted]
        exact List.mem_append_right _ he
    · rw [shown, hmiddleware]
      exact h.record
  | restart r kept hstation hchannel hmiddleware =>
    refine ⟨hstation ▸ sensor.boot_sourced H r, ⟨events.take kept, honway.take hchannel,
      fun e he => hevents e (List.mem_of_mem_take he)⟩, ?_⟩
    rw [shown, hmiddleware]
    exact h.record
  | deliver text rest timeNs again hchannel hstation hchannel' hmiddleware =>
    obtain ⟨e, later, rfl, htext, he, hlater⟩ := honway.oldest hchannel
    have hshown : shown config mirror f' i = (mirror.sent? e).getD (shown config mirror f i) :=
      shown_deliver hc hcfg hl hmiddleware htext he
    refine ⟨hstation ▸ h.station, ?_, ?_⟩
    · cases again with
      | true => exact ⟨e :: later, honway.same hchannel', hevents⟩
      | false =>
        exact ⟨later, hlater f' hchannel', fun x hx => hevents x (List.mem_cons_of_mem e hx)⟩
    · rw [hshown, Mirror.sent?]
      cases hvalue : sensor.value? e with
      | none => exact h.record
      | some v => exact .inr ⟨v, hevents e List.mem_cons_self v hvalue, rfl⟩
  | elsewhere hstation hchannel hrecord =>
    have hshown : shown config mirror f' i = shown config mirror f i :=
      congrArg mirror.get hrecord
    exact ⟨hstation ▸ h.station, ⟨events, honway.same hchannel, hevents⟩, hshown ▸ h.record⟩

include hc hl hcfg hdistinct in
theorem run_vouched (hs : ∀ i, f.Sane cjson config i)
    (h : Vouched cjson config sensor mirror initial H f i) {acts : List (FleetAct ι)}
    (hacts : ∀ act ∈ acts, act.Admissible config loads)
    (hreported : ∀ before after, acts = before ++ after → ∀ v,
      sensor.reported? ((f.run cjson config loads answers before).stations i) = some v → H v) :
    Vouched cjson config sensor mirror initial H (f.run cjson config loads answers acts) i := by
  induction acts generalizing f with
  | nil => exact h
  | cons act acts ih =>
    have hact := hacts act List.mem_cons_self
    have heffect : Effect cjson config loads answers f (f.step cjson config loads answers act) i :=
      step_effect hcfg hdistinct (hs i) hact
    refine ih (fun j => Sane.step hs hact j)
      (h.effect hc hcfg hl (hs i) heffect (hreported [act] acts rfl))
      (fun a ha => hacts a (List.mem_cons_of_mem _ ha)) fun before after hsplit => ?_
    exact hreported (act :: before) after (by rw [hsplit, List.cons_append])

omit [DecidableEq ι] in
theorem start_vouched (env : ι → Nat → Answer) (r : ι → Station.Readings)
    (middleware : Middleware) (sensor : Sensor γ) (mirror : Mirror sensor.toInput δ)
    (H : γ → Prop) (i : ι) :
    Vouched cjson config sensor mirror (shown config mirror (start env r middleware) i) H
      (start env r middleware) i :=
  ⟨sensor.boot_sourced H (r i), ⟨[], ⟨rfl, by simp⟩, by simp⟩, .inl rfl⟩

end Runs

end Fleet

/-! ## The result -/

/-- At every moment of every run of a fleet, with stations restarting and
messages arriving late, repeatedly or not at all, a station's record has in
each of its mirrored fields what it had at the beginning or what the driver of
that station had reported at some earlier moment. -/
theorem record_was_reported {ι : Type} [DecidableEq ι] (cjson : CJson) (hc : cjson.Standard)
    (loads : Loads) (hl : loads.Standard) (answers : Nat → Bool) (config : ι → DeviceConfig)
    (hcfg : ∀ i, ValidConfig (config i))
    (hdistinct : ∀ i j, i ≠ j → (config i).deviceId.text ≠ (config j).deviceId.text)
    (env : ι → Nat → Answer) (henv : ∀ i k, (env i k).allocated = true)
    (r : ι → Station.Readings) (hr : ∀ i, (r i).Early) (middleware : Middleware)
    (acts : List (FleetAct ι)) (hacts : ∀ act ∈ acts, act.Admissible config loads) (i : ι) :
    let fleet := (Fleet.start env r middleware).run cjson config loads answers
    let initial := middleware.adapter.record (config i).deviceId.text
    let record := (fleet acts).middleware.adapter.record (config i).deviceId.text
    let earlier (holds : Station → Prop) : Prop :=
      ∃ before after, acts = before ++ after ∧ holds ((fleet before).stations i)
    (record.buttonPressed = initial.buttonPressed ∨
      earlier fun s => s.buttonInput.initialEventPending = false ∧
        record.buttonPressed = s.buttonInput.state) ∧
    (record.taskDone = initial.taskDone ∨
      earlier fun s => s.toggleInput.initialEventPending = false ∧
        record.taskDone = s.toggleInput.state) ∧
    (record.targetCount = initial.targetCount ∨
      earlier fun s => (∃ poll, s.lastCounted = some poll ∧ poll.room = true) ∧
        record.targetCount = s.rotaryEncoder.count.toInt) ∧
    (record.progressPercent = initial.progressPercent ∨
      earlier fun s => s.analogInput.initialEventPending = false ∧
        record.progressPercent = s.analogInput.valuePercent.toInt) := by
  intro fleet initial record earlier
  have hall : ∀ {γ δ : Type} (sensor : Sensor γ) (mirror : Mirror sensor.toInput δ),
      mirror.get record = mirror.get initial ∨
        ∃ v, earlier (fun s => sensor.reported? s = some v) ∧
          mirror.get record = mirror.convert v := by
    intro γ δ sensor mirror
    refine (Fleet.run_vouched hc hcfg hdistinct hl (Fleet.start_sane henv hr middleware)
      (Fleet.start_vouched env r middleware sensor mirror
        (fun v => earlier fun s => sensor.reported? s = some v) i) hacts ?_).record
    intro before after hsplit v hv
    exact ⟨before, after, hsplit, hv⟩
  refine ⟨?_, ?_, ?_, ?_⟩
  · refine (hall .button .buttonPressed).imp id ?_
    rintro ⟨v, ⟨before, after, hsplit, hs⟩, hfield⟩
    refine ⟨before, after, hsplit, ?_⟩
    obtain ⟨hpending, hstate⟩ := DigitalInput.reported?_eq_some.mp hs
    exact ⟨hpending, hfield.trans hstate.symm⟩
  · refine (hall .toggle .taskDone).imp id ?_
    rintro ⟨v, ⟨before, after, hsplit, hs⟩, hfield⟩
    refine ⟨before, after, hsplit, ?_⟩
    obtain ⟨hpending, hstate⟩ := DigitalInput.reported?_eq_some.mp hs
    exact ⟨hpending, hfield.trans hstate.symm⟩
  · refine (hall .encoder .targetCount).imp id ?_
    rintro ⟨v, ⟨before, after, hsplit, hs⟩, hfield⟩
    refine ⟨before, after, hsplit, ?_⟩
    obtain ⟨poll, hpoll, rfl⟩ := Option.map_eq_some_iff.mp hs
    obtain ⟨hlast, hroom⟩ := Option.filter_eq_some_iff.mp hpoll
    exact ⟨⟨poll, hlast, hroom⟩, hfield⟩
  · refine (hall .analog .progressPercent).imp id ?_
    rintro ⟨v, ⟨before, after, hsplit, hs⟩, hfield⟩
    refine ⟨before, after, hsplit, ?_⟩
    obtain ⟨hpending, hvalue⟩ := Sensor.analog_reported hs
    exact ⟨hpending, hfield.trans (hvalue ▸ rfl)⟩

theorem record_was_reported_powerFailure :
    ∃ before after, powerFailure = before ++ after ∧
      ((((Fleet.start (fun _ => everOnline) (fun _ : Bool => {}) {}).run CJson.reference
          twoConfigs Loads.reference (fun _ => true) before).stations
            true).analogInput.initialEventPending = false ∧
        (((Fleet.start (fun _ => everOnline) (fun _ : Bool => {}) {}).run CJson.reference
          twoConfigs Loads.reference (fun _ => true) powerFailure).middleware.adapter.record
            (twoConfigs true).deviceId.text).progressPercent =
        (((Fleet.start (fun _ => everOnline) (fun _ : Bool => {}) {}).run CJson.reference
          twoConfigs Loads.reference (fun _ => true) before).stations
            true).analogInput.valuePercent.toInt) := by
  refine (record_was_reported CJson.reference CJson.reference_standard Loads.reference
    Loads.reference_standard (fun _ => true) twoConfigs twoConfigs_valid twoConfigs_distinct
    (fun _ => everOnline) (fun _ _ => rfl) (fun _ : Bool => {}) (fun _ => readings_early 0) {}
    powerFailure powerFailure_admissible true).2.2.2.resolve_left ?_
  decide +kernel

end KaizenStation.EndToEnd
