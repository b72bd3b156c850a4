/-
KaizenStation.EndToEnd.Floor — the record shows the floor.

A station settles while its inputs stand still (`Station.Settling.settled`),
and the record of a station follows what its drivers report
(`Fleet.start_shows`). So from whatever happened before, with stations
restarting and messages lost on the way, the record of a station that runs on
with its inputs at rest and the broker at hand shows in the end what the
inputs show (`record_shows_floor`). The other stations go on as they like, and
the backend may send its commands meanwhile.
-/
import KaizenStation.EndToEnd.Fleet
import KaizenStation.Firmware.SettlingTheorems

namespace KaizenStation.EndToEnd

open KaizenStation.Foundation KaizenStation.Firmware KaizenStation.Backend

/-! ## One station of the fleet -/

section Projection

variable {ι : Type} [DecidableEq ι]

/-- The act of the station's tasks, if it is one. -/
def FleetAct.of (i : ι) : FleetAct ι → Option Act
  | .task j act => if j = i then some act else none
  | _ => none

def FleetAct.restarts (i : ι) : FleetAct ι → Bool
  | .restart j _ _ _ => decide (j = i)
  | _ => false

theorem FleetAct.early_of {config : ι → DeviceConfig} {loads : Loads} {i : ι}
    {fleetAct : FleetAct ι} {act : Act} (h : fleetAct.of i = some act)
    (hadm : fleetAct.Admissible config loads) : act.Early := by
  cases fleetAct with
  | task j own =>
    by_cases hij : j = i
    · rw [FleetAct.of, if_pos hij] at h
      cases h
      exact hadm.2
    · rw [FleetAct.of, if_neg hij] at h
      cases h
  | _ => cases h

namespace Fleet

variable {cjson : CJson} {config : ι → DeviceConfig} {loads : Loads} {answers : Nat → Bool}
  {f : Fleet ι} {i : ι}

theorem step_station {act : FleetAct ι} (h : act.restarts i = false) :
    (f.step cjson config loads answers act).env i = f.env i ∧
    (f.step cjson config loads answers act).stations i =
      match act.of i with
      | some act => (f.stations i).step (f.platform cjson config i) act
      | none => f.stations i := by
  cases act with
  | task j act =>
    refine ⟨rfl, ?_⟩
    by_cases hij : j = i
    · subst hij
      simp [Fleet.step, FleetAct.of]
    · simp [Fleet.step, FleetAct.of, hij, Function.update_of_ne (Ne.symm hij)]
  | restart j r env kept =>
    have hij : i ≠ j := fun hij => of_decide_eq_false h hij.symm
    simp [Fleet.step, FleetAct.of, Function.update_of_ne hij]
  | deliver j timeNs again =>
    simp only [Fleet.step]
    split <;> exact ⟨rfl, rfl⟩
  | other callback => exact ⟨rfl, rfl⟩

/-- A station that does not restart runs its own acts. -/
theorem run_station {acts : List (FleetAct ι)} (h : ∀ act ∈ acts, act.restarts i = false) :
    (f.run cjson config loads answers acts).env i = f.env i ∧
    (f.run cjson config loads answers acts).stations i =
      (f.stations i).run (f.platform cjson config i) (acts.filterMap (FleetAct.of i)) := by
  induction acts generalizing f with
  | nil => exact ⟨rfl, rfl⟩
  | cons act acts ih =>
    obtain ⟨henv, hstation⟩ := @step_station ι _ cjson config loads answers f i act
      (h act List.mem_cons_self)
    obtain ⟨henv', hstation'⟩ := @ih (f.step cjson config loads answers act)
      fun act hact => h act (List.mem_cons_of_mem _ hact)
    have hplatform : (f.step cjson config loads answers act).platform cjson config i =
        f.platform cjson config i := by
      rw [Fleet.platform, henv]
      rfl
    refine ⟨henv'.trans henv, hstation'.trans ?_⟩
    rw [hplatform, hstation]
    cases hof : act.of i <;> simp [hof, Station.run]

theorem step_equipped (h : ∀ i, (f.stations i).Equipped) (act : FleetAct ι) (i : ι) :
    ((f.step cjson config loads answers act).stations i).Equipped := by
  cases hrestarts : act.restarts i with
  | false =>
    rw [(step_station hrestarts).2]
    cases act.of i with
    | none => exact h i
    | some act => exact (h i).step act
  | true =>
    cases act with
    | restart j r env kept =>
      obtain rfl : j = i := of_decide_eq_true hrestarts
      simp only [Fleet.step, Function.update_self]
      exact Station.boot_equipped r true
    | _ => cases hrestarts

/-- What every station has at every moment of a run. -/
theorem run_keeps (hs : ∀ i, f.Sane cjson config i ∧ (f.stations i).Equipped)
    {acts : List (FleetAct ι)} (hacts : ∀ act ∈ acts, act.Admissible config loads) :
    ∀ i, (f.run cjson config loads answers acts).Sane cjson config i ∧
      ((f.run cjson config loads answers acts).stations i).Equipped := by
  have hkeep : ∀ (f : Fleet ι) (act : FleetAct ι),
      (∀ i, f.Sane cjson config i ∧ (f.stations i).Equipped) → act.Admissible config loads →
      ∀ i, (f.step cjson config loads answers act).Sane cjson config i ∧
        ((f.step cjson config loads answers act).stations i).Equipped :=
    fun f act hf hact i => ⟨Sane.step (fun j => (hf j).1) hact i,
      step_equipped (fun j => (hf j).2) act i⟩
  exact foldl_keeps hkeep hs hacts

end Fleet

end Projection

/-! ## The result -/

/-- In every run of a fleet, whatever happened before: if a station then runs
on without a power failure, its inputs stand still and its calls are served,
until the queue has been drained, every input has been read, and button and
toggle once more after the debounce interval, then its record shows the button
and the toggle as they are and the slider to less than the deadband, as soon
as what is on its way has arrived; and the last count of the encoder that
found room in the queue. Up to 27 commands and connection events may be posted
to the station meanwhile. -/
theorem record_shows_floor {ι : Type} [DecidableEq ι] (cjson : CJson) (hc : cjson.Standard)
    (loads : Loads) (hl : loads.Standard) (answers : Nat → Bool) (config : ι → DeviceConfig)
    (hcfg : ∀ i, ValidConfig (config i))
    (hdistinct : ∀ i j, i ≠ j → (config i).deviceId.text ≠ (config j).deviceId.text)
    (env : ι → Nat → Answer) (henv : ∀ i k, (env i k).allocated = true)
    (r : ι → Station.Readings) (hr : ∀ i, (r i).Early) (middleware : Middleware)
    (before acts : List (FleetAct ι)) (hacts : ∀ act ∈ before ++ acts, act.Admissible config loads)
    (i : ι) (floor : Floor) (drain look pause again finish : List Act) :
    let f := (Fleet.start env r middleware).run cjson config loads answers before
    let f' := f.run cjson config loads answers acts
    let s' := f'.stations i
    let record := (f'.arrived config loads answers i).adapter.record (config i).deviceId.text
    (∀ act ∈ acts, act.restarts i = false) →
    acts.filterMap (FleetAct.of i) = drain ++ look ++ pause ++ again ++ finish →
    (f.stations i).Settling (f.platform cjson config i) floor drain look pause again finish →
    (∀ k, (f.stations i).application.calls ≤ k → (f.env i k).Serves) →
    record.buttonPressed = DigitalInput.readRawState floor.buttonLevel ∧
    record.taskDone = DigitalInput.readRawState floor.toggleLevel ∧
    |(AnalogInput.rawToPercent floor.rawValue).toInt - record.progressPercent| < 2 ∧
    (∀ poll, s'.lastReported = some poll → record.targetCount = poll.count.toInt) ∧
    (∀ poll, s'.lastCounted = some poll → poll.room = true →
      record.targetCount = s'.rotaryEncoder.count.toInt) := by
  intro f f' s' record hrunning hown hsettling hserved
  have hstart : ∀ i, (Fleet.start env r middleware).Sane cjson config i ∧
      ((Fleet.start env r middleware).stations i).Equipped :=
    fun i => ⟨Fleet.start_sane henv hr middleware i, Station.boot_equipped (r i) true⟩
  obtain ⟨hsane, hequipped⟩ : f.Sane cjson config i ∧ (f.stations i).Equipped :=
    Fleet.run_keeps hstart (fun act hact => hacts act (List.mem_append_left acts hact)) i
  have hown' : s' = (f.stations i).run (f.platform cjson config i)
      (drain ++ look ++ pause ++ again ++ finish) :=
    hown ▸ (Fleet.run_station hrunning).2
  have hearly : ∀ act ∈ drain ++ look ++ pause ++ again ++ finish, act.Early := by
    intro act hact
    rw [← hown] at hact
    obtain ⟨fleetAct, hmem, hof⟩ := List.mem_filterMap.mp hact
    exact FleetAct.early_of hof (hacts fleetAct (List.mem_append_right before hmem))
  have hsettled : s'.Settled floor (finish.countP Act.isPost) :=
    hown' ▸ hsettling.settled hc ⟨hsane.healthy, hequipped, hserved⟩ hearly
  have hcalm : ∀ source, source ≠ 0 → Calm s' source := by
    intro source hphysical
    refine ⟨fun e he hsource => ?_, by simp [hsettled.store]⟩
    exact hphysical (hsource.symm.trans (hsettled.queue e he).source)
  have hshows : ∀ {γ δ : Type} (sensor : Sensor γ) (mirror : Mirror sensor.toInput δ) (v : γ),
      sensor.reported? s' = some v → mirror.get record = mirror.convert v := by
    intro γ δ sensor mirror v hv
    have hrun : f' = (Fleet.start env r middleware).run cjson config loads answers
        (before ++ acts) := (List.foldl_append ..).symm
    have hstation := Fleet.start_shows hc hl answers hcfg hdistinct henv hr middleware hacts i
      sensor mirror
    rw [← hrun] at hstation
    exact hstation (hcalm _ sensor.physical) v hv
  refine ⟨hshows .button .buttonPressed _ hsettled.button,
    hshows .toggle .taskDone _ hsettled.toggle, ?_, fun poll hpoll => ?_,
    fun poll hpoll hroom => ?_⟩
  · have hslider : record.progressPercent = s'.analogInput.valuePercent.toInt :=
      hshows .analog .progressPercent _ (by simp [Sensor.analog, hsettled.analog])
    rw [hslider]
    exact hsettled.near
  · exact hshows .encoderCount .targetCount _ (by simp [Sensor.encoderCount, hpoll])
  · exact hshows .encoder .targetCount _ (by simp [Sensor.encoder, hpoll, hroom])

/-- The power fails before the slider's report is sent. -/
def interrupted : List (FleetAct Bool) :=
  [.task true (.pollAnalog (some 4095)), .restart true { rawValue := 2048 } everOnline 0]

/-- The button is held and the slider is at its end; the backend sends a
command. -/
def heldFloor : Floor := { buttonLevel := 0, rawValue := 4095 }

def turns (n : Nat) : List Act := List.replicate n (.central 0)

def heldLook : List Act :=
  [.pollButton 0 0, .pollToggle 1 0, .pollEncoder 1 1, .pollAnalog (some 4095)]

def heldAgain : List Act := [.pollButton 0 0, .pollToggle 1 0]

def heldPause : List Act := [.post { type := .setOutput, value := 1 }, .wait 40]

def held : List Act := turns 113 ++ heldLook ++ heldPause ++ heldAgain ++ turns 17

theorem held_shows : ∀ act ∈ held, act.Shows heldFloor ∧ act.Quiet ∧ act.Early := by
  have hzero : (0 : UInt64).toNat < 10 ^ 15 := by decide
  have hforty : (40 : UInt64).toNat < 10 ^ 15 := by decide
  have hturns : ∀ n, ∀ act ∈ turns n, act.Shows heldFloor ∧ act.Quiet ∧ act.Early := by
    intro n act hact
    obtain rfl := List.eq_of_mem_replicate hact
    exact ⟨trivial, trivial, trivial⟩
  intro act hact
  simp only [held, List.mem_append] at hact
  rcases hact with (((hact | hact) | hact) | hact) | hact
  · exact hturns 113 act hact
  · revert act
    simp only [heldLook, List.forall_mem_cons, List.not_mem_nil, IsEmpty.forall_iff, implies_true,
      and_true]
    refine ⟨⟨rfl, trivial, hzero⟩, ⟨rfl, trivial, hzero⟩, ⟨⟨rfl, rfl⟩, trivial, trivial⟩,
      ⟨fun rawValue h => ?_, trivial, trivial⟩⟩
    exact (Option.some.inj h).symm
  · revert act
    simp only [heldPause, List.forall_mem_cons, List.not_mem_nil, IsEmpty.forall_iff, implies_true,
      and_true]
    exact ⟨⟨⟨⟨rfl, rfl⟩, rfl⟩, ⟨⟨rfl, rfl⟩, rfl⟩, trivial⟩, ⟨trivial, trivial, hforty⟩⟩
  · revert act
    simp only [heldAgain, List.forall_mem_cons, List.not_mem_nil, IsEmpty.forall_iff, implies_true,
      and_true]
    exact ⟨⟨rfl, trivial, hzero⟩, ⟨rfl, trivial, hzero⟩⟩
  · exact hturns 17 act hact

theorem filterMap_of_map (i : Bool) (acts : List Act) :
    (acts.map (FleetAct.task i)).filterMap (FleetAct.of i) = acts := by
  induction acts with
  | nil => rfl
  | cons act acts ih => rw [List.map_cons, List.filterMap_cons, FleetAct.of, if_pos rfl, ih]

theorem record_shows_floor_held :
    ((((((Fleet.start (fun _ => everOnline) (fun _ : Bool => {}) {}).run CJson.reference twoConfigs
      Loads.reference (fun _ => true) interrupted).run CJson.reference twoConfigs Loads.reference
      (fun _ => true) (held.map (FleetAct.task true))).arrived twoConfigs Loads.reference
      (fun _ => true) true).adapter.record
        (twoConfigs true).deviceId.text).buttonPressed) = true := by
  have hinterrupted : ∀ act ∈ interrupted, act.Admissible twoConfigs Loads.reference := by
    simp only [interrupted, List.forall_mem_cons, List.not_mem_nil, IsEmpty.forall_iff,
      implies_true, and_true]
    exact ⟨⟨trivial, trivial⟩, readings_early 2048, fun _ => rfl⟩
  have hacts : ∀ act ∈ interrupted ++ held.map (FleetAct.task true),
      act.Admissible twoConfigs Loads.reference := by
    intro act hact
    rcases List.mem_append.mp hact with hact | hact
    · exact hinterrupted act hact
    · obtain ⟨own, hown, rfl⟩ := List.mem_map.mp hact
      exact (held_shows own hown).2
  refine (record_shows_floor CJson.reference CJson.reference_standard Loads.reference
    Loads.reference_standard (fun _ => true) twoConfigs twoConfigs_valid twoConfigs_distinct
    (fun _ => everOnline) (fun _ _ => rfl) (fun _ : Bool => {}) (fun _ => readings_early 0) {}
    interrupted (held.map (FleetAct.task true)) hacts true heldFloor (turns 113) heldLook
    heldPause heldAgain (turns 17) ?_ (filterMap_of_map true held) ?_ ?_).1.trans ?_
  · intro act hact
    obtain ⟨own, -, rfl⟩ := List.mem_map.mp hact
    rfl
  · refine ⟨fun act hact => (held_shows act hact).1, ?_, ?_, ?_, ?_, ?_, ?_⟩
    · decide +kernel
    · decide +kernel
    · simp only [List.forall_mem_cons, List.not_mem_nil, IsEmpty.forall_iff, implies_true, and_true]
      decide
    · decide +kernel
    · simp only [List.forall_mem_cons, List.not_mem_nil, IsEmpty.forall_iff, implies_true, and_true]
      decide
    · decide +kernel
  · intro k _
    exact ⟨rfl, rfl, rfl⟩
  · rfl

end KaizenStation.EndToEnd
