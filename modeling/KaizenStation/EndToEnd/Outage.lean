/-
KaizenStation.EndToEnd.Outage — what an outage of any length leaves to be
replayed.

While a station is offline its reports collect in the offline store, the
newest of each input. However long that takes, the store then has at most one
event for each of the four inputs and has refused none (`waiting_length`,
`healthy_refuses_nothing`), and the store is all that is missing: once it is
replayed, the record shows what the drivers last reported (`outage_replays`).
-/
import KaizenStation.EndToEnd.Fleet

namespace KaizenStation.EndToEnd

open KaizenStation.Foundation KaizenStation.Firmware KaizenStation.Backend

/-! ## The backlog of a station -/

section Backlog

variable {p : Platform} {s : Station} (h : s.Healthy p)

/-- Numbered events that are no heartbeats, at most one of each source. -/
structure Waiting (s : Station) (events : List Event) : Prop where
  unique : KeysUnique Event.key events
  issued : ∀ e ∈ events, e ∈ s.application.issued
  kept : ∀ e ∈ events, e.type ≠ .heartbeat

include h

/-- What waits reports one of the inputs. -/
theorem waiting_source {events : List Event} (hw : Waiting s events) {e : Event} (he : e ∈ events) :
    ∃ source ∈ [1, 2, 3, 4], Event.key e = some source :=
  Application.produced_source (h.fed.issued e (hw.issued e he)).1
    (h.fed.published e (hw.issued e he)) (hw.kept e he)

theorem waiting_nodup {events : List Event} (hw : Waiting s events) :
    (events.map (·.sourceId)).Nodup := by
  refine List.pairwise_map.mpr (List.Pairwise.imp_of_mem ?_ hw.unique)
  intro e e' he _ hdiffers hsame
  obtain ⟨source, -, hkey⟩ := waiting_source h hw he
  obtain ⟨hsource, hphysical⟩ := Event.key_eq_some.mp hkey
  exact hdiffers (sameKey_iff.mpr ⟨hsame, by rw [← hsame, hsource]; exact hphysical⟩)

/-- There are four inputs. -/
theorem waiting_length {events : List Event} (hw : Waiting s events) : events.length ≤ 4 := by
  have hsources : events.map (·.sourceId) ⊆ [1, 2, 3, 4] := by
    intro source hsource
    obtain ⟨e, he, rfl⟩ := List.mem_map.mp hsource
    obtain ⟨source, hmem, hkey⟩ := waiting_source h hw he
    rw [(Event.key_eq_some.mp hkey).1]
    exact hmem
  have hlength := ((waiting_nodup h hw).subperm hsources).length_le
  simpa using hlength

theorem backlog_waiting : Waiting s s.application.offlineStore.events where
  unique := h.fed.ready.wellFormed.unique
  issued := fun _ he => h.fed.sound.inOrder.subset
    (List.mem_append_left _ (List.mem_append_right _ he))
  kept := fun e he => of_decide_eq_false (h.fed.sound.stored e he)

theorem backlog_sendable : ∀ e ∈ s.application.offlineStore.events, e.Sendable := by
  intro e he
  have hissued := (backlog_waiting h).issued e he
  exact ⟨(h.fed.issued e hissued).1, (h.fed.issued e hissued).2, h.fed.published e hissued⟩

/-- A refused event would have met a store of 64 events that wait. -/
theorem healthy_refuses_nothing : s.application.refusals = [] := by
  refine List.eq_nil_iff_forall_not_mem.mpr fun event hevent => ?_
  obtain ⟨o, ho, hrefused⟩ := List.mem_filterMap.mp hevent
  cases o with
  | bufferFull e held =>
    cases hrefused
    have hlost : (event, .rejected held) ∈ s.application.losses :=
      List.mem_filterMap.mpr ⟨_, ho, rfl⟩
    obtain ⟨hfull, -, hunique, hheld⟩ := h.fed.sound.justified _ hlost rfl
    have hlength : held.length ≤ 4 := waiting_length h
      ⟨hunique, fun e he => (hheld e he).1, fun e he => of_decide_eq_false (hheld e he).2⟩
    have hcapacity : 64 ≤ held.length := hfull
    omega
  | _ => cases hrefused

end Backlog

/-! ## The replay -/

namespace Fleet

variable {ι : Type} (cjson : CJson) (config : ι → DeviceConfig) (loads : Loads)
  (answers : Nat → Bool)

/-- The middleware once everything on its way from a station and then all that
the station has stored has arrived. -/
def replayed (f : Fleet ι) (i : ι) : Middleware :=
  ((f.channels i ++ (f.stations i).application.offlineStore.events.map
      (f.platform cjson config i).text).map fun text => arrival (config i) text 0).foldl
    (Middleware.onMessage loads answers) f.middleware

variable {cjson config loads answers}

/-- What is stored comes after what is on its way, as the driver reported
it. -/
theorem Follows.replayed (hc : cjson.Standard) (hcfg : ∀ i, ValidConfig (config i))
    (hl : loads.Standard) {γ δ : Type} {sensor : Sensor γ} {mirror : Mirror sensor.toInput δ}
    {f : Fleet ι} {i : ι} (h : Follows cjson config mirror f i) (hs : f.Sane cjson config i)
    (ht : sensor.Truthful (f.stations i))
    (hqueue : ∀ e ∈ (f.stations i).eventQueue.items, e.sourceId ≠ sensor.source) {v : γ}
    (hv : sensor.reported? (f.stations i) = some v) :
    mirror.field (config i).deviceId.text (f.replayed cjson config loads answers i) =
      mirror.convert v := by
  obtain ⟨events, honway, hlast⟩ := h
  have hsendable : ∀ e ∈ events ++ (f.stations i).application.offlineStore.events, e.Sendable :=
    fun e he => (List.mem_append.mp he).elim (honway.sendable e) (backlog_sendable hs.healthy e)
  have hall := mirror.onMessages_own answers (p := f.platform cjson config i) hc hl (hcfg i)
    f.middleware hsendable
  rw [List.map_append, ← honway.payloads] at hall
  refine hall.trans ?_
  have hnewest := sensor.last_replayed hs.healthy ht hc hs.memory hqueue hv
  have hmap : lastWrite mirror.sent? (f.stations i).application.offlineStore.events =
      (lastWrite sensor.value? (f.stations i).application.offlineStore.events).map
        mirror.convert := lastWrite_map _ _ _
  rw [arriving_send, hmap]
  rw [lastWrite_append] at hnewest
  cases hstored : lastWrite sensor.value? (f.stations i).application.offlineStore.events with
  | none =>
    rw [hstored, Option.none_or] at hnewest
    exact hlast v hnewest
  | some w =>
    rw [hstored, Option.some_or] at hnewest
    rw [Option.some.inj hnewest]
    rfl

end Fleet

/-- In every run of a fleet, however long MQTT was not there for a station: at
most one event for each of its four inputs waits to be replayed, none was ever
refused, and after the replay the record shows each input as the driver last
reported it, unless a report is still in the event queue. The encoder last
reported the count of the last edge that found room in the queue. -/
theorem outage_replays {ι : Type} [DecidableEq ι] (cjson : CJson) (hc : cjson.Standard)
    (loads : Loads) (hl : loads.Standard) (answers : Nat → Bool) (config : ι → DeviceConfig)
    (hcfg : ∀ i, ValidConfig (config i))
    (hdistinct : ∀ i j, i ≠ j → (config i).deviceId.text ≠ (config j).deviceId.text)
    (env : ι → Nat → Answer) (henv : ∀ i k, (env i k).allocated = true)
    (r : ι → Station.Readings) (hr : ∀ i, (r i).Early) (middleware : Middleware)
    (acts : List (FleetAct ι)) (hacts : ∀ act ∈ acts, act.Admissible config loads) (i : ι) :
    let f := (Fleet.start env r middleware).run cjson config loads answers acts
    let s := f.stations i
    let backlog := s.application.offlineStore.events
    let record := (f.replayed cjson config loads answers i).adapter.record (config i).deviceId.text
    (backlog.length ≤ 4 ∧ (backlog.map (·.sourceId)).Nodup ∧ s.application.refusals = []) ∧
    ((∀ e ∈ s.eventQueue.items, e.sourceId ≠ 1) → s.buttonInput.initialEventPending = false →
      record.buttonPressed = s.buttonInput.state) ∧
    ((∀ e ∈ s.eventQueue.items, e.sourceId ≠ 2) → s.toggleInput.initialEventPending = false →
      record.taskDone = s.toggleInput.state) ∧
    ((∀ e ∈ s.eventQueue.items, e.sourceId ≠ 3) →
      (∀ poll, s.lastReported = some poll → record.targetCount = poll.count.toInt) ∧
      ∀ poll, s.lastCounted = some poll → poll.room = true →
        record.targetCount = s.rotaryEncoder.count.toInt) ∧
    ((∀ e ∈ s.eventQueue.items, e.sourceId ≠ 4) → s.analogInput.initialEventPending = false →
      record.progressPercent = s.analogInput.valuePercent.toInt) := by
  intro f s backlog record
  have hstart : ∀ i, (Fleet.start env r middleware).Sane cjson config i :=
    Fleet.start_sane henv hr middleware
  have hshows : ∀ {γ δ : Type} (sensor : Sensor γ) (mirror : Mirror sensor.toInput δ),
      f.Sane cjson config i ∧
      ((∀ e ∈ s.eventQueue.items, e.sourceId ≠ sensor.source) →
        ∀ v, sensor.reported? s = some v → mirror.get record = mirror.convert v) := by
    intro γ δ sensor mirror
    obtain ⟨hsane, hfollows, htruthful⟩ : f.Sane cjson config i ∧
        f.Follows cjson config mirror i ∧ sensor.Truthful s :=
      Fleet.run_follows hc hcfg hdistinct hl hstart
        (Fleet.start_follows env r middleware mirror i) (sensor.truthful_boot (r i)) hacts
    exact ⟨hsane, fun hqueue v hv =>
      hfollows.replayed hc hcfg hl hsane htruthful hqueue hv⟩
  have hhealthy : s.Healthy (f.platform cjson config i) :=
    (hshows .button .buttonPressed).1.healthy
  refine ⟨⟨waiting_length hhealthy (backlog_waiting hhealthy),
    waiting_nodup hhealthy (backlog_waiting hhealthy), healthy_refuses_nothing hhealthy⟩,
    fun hq hp => ?_, fun hq hp => ?_, fun hq => ⟨fun poll hpoll => ?_,
      fun poll hpoll hroom => ?_⟩, fun hq hp => ?_⟩
  · exact (hshows .button .buttonPressed).2 hq _ (DigitalInput.reported?_of hp)
  · exact (hshows .toggle .taskDone).2 hq _ (DigitalInput.reported?_of hp)
  · exact (hshows .encoderCount .targetCount).2 hq _ (by simp [Sensor.encoderCount, hpoll])
  · exact (hshows .encoder .targetCount).2 hq _ (by simp [Sensor.encoder, hpoll, hroom])
  · exact (hshows .analog .progressPercent).2 hq _ (by simp [Sensor.analog, hp])

/-- The second station has no connection. -/
def secondOffline (second : Bool) : Nat → Answer := fun _ =>
  { connected := !second, allocated := true, accepted := !second }

/-- The slider of the second station is moved twice, and its switch read,
while it has no connection. -/
def movedOffline : List (FleetAct Bool) :=
  [.task true (.pollAnalog (some 1000)), .task true (.central 0), .task true (.central 0),
   .task true (.central 0), .task true (.wait 30), .task true (.pollToggle 0 30),
   .task true (.central 0), .task true (.central 0), .task true (.central 0),
   .task true (.pollAnalog (some 4095)), .task true (.central 0)]

theorem movedOffline_admissible :
    ∀ act ∈ movedOffline, act.Admissible twoConfigs Loads.reference := by
  simp only [movedOffline, List.forall_mem_cons, List.not_mem_nil, IsEmpty.forall_iff,
    implies_true, and_true]
  have hthirty : (30 : UInt64).toNat < 10 ^ 15 := by decide
  exact ⟨⟨trivial, trivial⟩, ⟨trivial, trivial⟩, ⟨trivial, trivial⟩, ⟨trivial, trivial⟩,
    ⟨trivial, hthirty⟩, ⟨trivial, hthirty⟩, ⟨trivial, trivial⟩, ⟨trivial, trivial⟩,
    ⟨trivial, trivial⟩, ⟨trivial, trivial⟩, ⟨trivial, trivial⟩⟩

theorem outage_replays_movedOffline :
    ((((Fleet.start secondOffline (fun _ : Bool => {}) {}).run CJson.reference twoConfigs
      Loads.reference (fun _ => true) movedOffline).replayed CJson.reference twoConfigs
      Loads.reference (fun _ => true) true).adapter.record
        (twoConfigs true).deviceId.text).progressPercent = 100 := by
  obtain ⟨-, -, -, -, hslider⟩ := outage_replays CJson.reference CJson.reference_standard
    Loads.reference Loads.reference_standard (fun _ => true) twoConfigs twoConfigs_valid
    twoConfigs_distinct secondOffline (fun _ _ => rfl) (fun _ : Bool => {})
    (fun _ => readings_early 0) {} movedOffline movedOffline_admissible true
  have hend := fun h : _ ∧ _ => hslider h.1 h.2
  refine (hend (by decide +kernel)).trans ?_
  decide +kernel

end KaizenStation.EndToEnd
