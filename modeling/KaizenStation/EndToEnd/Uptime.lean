/-
KaizenStation.EndToEnd.Uptime — do timestamps order the events of one boot?

They do in every run in which no heartbeat overtakes an older event that is
still in the queue (`timestamps_follow_sequence`): the accepted events then
have increasing numbers and timestamps that never decrease, and a record that
receives them in order sees the uptime grow. `heartbeat_overtakes` is a short
run in which a heartbeat overtakes.
-/
import KaizenStation.Firmware.TimestampTheorems
import KaizenStation.Backend.ServiceTheorems
import KaizenStation.EndToEnd.Wire

namespace KaizenStation.EndToEnd

open KaizenStation.Foundation KaizenStation.Firmware KaizenStation.Backend

/-! ## The uptime of a record -/

/-- The uptime a record shows is the last timestamp it received. -/
theorem uptime_foldl (state : Workstation) (xs : List (StationEvent × Option Int)) :
    (xs.foldl Workstation.apply state).lastDeviceUptimeMs =
      (xs.map (fun x => x.1.timestampMs)).getLast?.getD state.lastDeviceUptimeMs := by
  rw [Workstation.writes_lastDeviceUptimeMs.foldl, lastWrite, List.filterMap_eq_map']

/-- In a list that never decreases, the last element of a longer part is no
smaller. -/
theorem getLast?_mono {earlier later : List Int} (h : (earlier ++ later).Pairwise (· ≤ ·))
    (hpos : ∀ t ∈ earlier ++ later, 0 ≤ t) :
    earlier.getLast?.getD 0 ≤ (earlier ++ later).getLast?.getD 0 := by
  rw [List.getLast?_append]
  cases hlater : later.getLast? with
  | none => simp
  | some u =>
    have hu := List.mem_of_getLast? hlater
    cases hearlier : earlier.getLast? with
    | none => simpa using hpos u (List.mem_append_right _ hu)
    | some t =>
      exact (List.pairwise_append.mp h).2.2 t (List.mem_of_getLast? hearlier) u hu

/-- The timestamps of the events the backend sees are those of the firmware's
events. -/
theorem received_ordered (config : DeviceConfig) {events : List Event}
    (h : events.Pairwise (fun x y => x.timestampMs ≤ y.timestampMs)) :
    ((events.filterMap (stationEvent config)).map StationEvent.timestampMs).Pairwise (· ≤ ·) := by
  rw [List.pairwise_map, List.pairwise_filterMap]
  refine h.imp ?_
  intro x y hxy x' hx y' hy
  obtain ⟨kind, -, rfl⟩ := Option.map_eq_some_iff.mp hx
  obtain ⟨kind', -, rfl⟩ := Option.map_eq_some_iff.mp hy
  exact Int.ofNat_le.mpr (UInt64.le_iff_toNat_le.mp hxy)

/-! ## Runs without an overtaking heartbeat -/

/-- If no heartbeat overtakes an older event in the queue, the accepted events
have increasing numbers and timestamps that do not decrease, and the uptime of
the station's record never goes backwards while they arrive in order. -/
theorem timestamps_follow_sequence (p : Platform) (r : Station.Readings) (mutex : Bool)
    (acts : List Act) (hacts : ∀ act ∈ acts, act.Quiet)
    (hcount : ((Station.boot r mutex).run p acts).application.issued.length < 2 ^ 32)
    (hno : ∀ before freeHeap after, acts = before ++ .central freeHeap :: after →
      ¬ Station.Overtakes p ((Station.boot r mutex).run p before)) (loads : Loads) :
    let accepted := ((Station.boot r mutex).run p acts).application.accepted
    let uptime := fun xs => ((({} : MockOdooAdapter).handleEvents loads xs).record
      p.config.deviceId.text).lastDeviceUptimeMs
    accepted.Pairwise (fun x y => x.sequenceId < y.sequenceId ∧ x.timestampMs ≤ y.timestampMs) ∧
    ∀ earlier later : List (StationEvent × Option Int),
      (earlier ++ later).map (·.1) <+: accepted.filterMap (stationEvent p.config) →
      uptime earlier ≤ uptime (earlier ++ later) := by
  intro accepted uptime
  obtain ⟨calls, hcalls⟩ := Station.run_calls p r mutex hacts
  have hrun := Application.boot_run p OFFLINE_EVENT_QUEUE_SIZE mutex {} calls
  rw [← hcalls] at hrun
  have htimely := (Station.run_timely p r mutex hacts hno).ordered
  have hids : accepted.Pairwise (fun x y => x.sequenceId < y.sequenceId) :=
    (List.pairwise_append.mp (hrun.ordered (hrun.count ▸ hcount))).1
  have htimes : accepted.Pairwise (fun x y => x.timestampMs ≤ y.timestampMs) := by
    rw [Station.stamps, List.pairwise_map] at htimely
    exact (List.pairwise_append.mp (List.pairwise_append.mp htimely).1).1
  refine ⟨hids.and htimes, ?_⟩
  intro earlier later hinit
  have hreceived : ∀ x ∈ earlier ++ later, ∃ event, stationEvent p.config event = some x.1 := by
    intro x hx
    have hmem := hinit.subset (List.mem_map_of_mem (f := (·.1)) hx)
    obtain ⟨event, -, hevent⟩ := List.mem_filterMap.mp hmem
    exact ⟨event, hevent⟩
  have hdevice : ∀ x ∈ earlier ++ later, x.1.deviceId = p.config.deviceId.text := by
    intro x hx
    obtain ⟨event, hevent⟩ := hreceived x hx
    exact stationEvent_deviceId hevent
  have hsorted : ((earlier ++ later).map (fun x => x.1.timestampMs)).Pairwise (· ≤ ·) := by
    have h := (received_ordered p.config htimes).sublist (hinit.sublist.map _)
    rwa [List.map_map] at h
  have hpos : ∀ t ∈ (earlier ++ later).map (fun x => x.1.timestampMs), 0 ≤ t := by
    intro t ht
    obtain ⟨x, hx, rfl⟩ := List.mem_map.mp ht
    obtain ⟨event, hevent⟩ := hreceived x hx
    obtain ⟨kind, -, hkind⟩ := Option.map_eq_some_iff.mp hevent
    rw [← hkind]
    exact Int.natCast_nonneg _
  show (MockOdooAdapter.record _ _).lastDeviceUptimeMs ≤
    (MockOdooAdapter.record _ _).lastDeviceUptimeMs
  rw [MockOdooAdapter.record_handleEvents loads {} hdevice,
    MockOdooAdapter.record_handleEvents loads {}
      fun x hx => hdevice x (List.mem_append_left _ hx), uptime_foldl, uptime_foldl]
  rw [List.map_append] at hsorted hpos ⊢
  exact getLast?_mono hsorted hpos

/-- A step of the knob is published before the first heartbeat falls due. -/
def turnThenBeat : List Act :=
  [.pollEncoder 0 1, .central 0, .central 0, .wait 30000, .central 0]

theorem timestamps_follow_sequence_turn :
    (((Station.boot {}).run Platform.online turnThenBeat).application.accepted).Pairwise
      (fun x y => x.sequenceId < y.sequenceId ∧ x.timestampMs ≤ y.timestampMs) := by
  refine (timestamps_follow_sequence Platform.online {} true turnThenBeat ?_ ?_ ?_
    Loads.reference).1
  · intro act hact
    simp only [turnThenBeat, List.mem_cons, List.not_mem_nil, or_false] at hact
    rcases hact with rfl | rfl | rfl | rfl | rfl <;> trivial
  · decide +kernel
  · intro before freeHeap after hsplit
    have hbefore : before = turnThenBeat.take before.length := by rw [hsplit]; simp
    have hlen : before.length < 5 := by
      have := congrArg List.length hsplit
      simp [turnThenBeat] at this
      omega
    rw [hbefore]
    have hall : ∀ n < 5, ¬ Station.Overtakes Platform.online
        ((Station.boot {}).run Platform.online (turnThenBeat.take n)) := by decide +kernel
    exact hall before.length hlen

/-! ## An overtaking heartbeat -/

/-- Two steps of the knob are queued; the first is received just before the
heartbeat falls due, the second just after. -/
def turnAroundBeat : List Act :=
  [.wait 29999, .pollEncoder 0 1, .pollEncoder 0 0, .central 0, .central 0, .wait 30000,
   .central 0, .central 0]

/-- The heartbeat takes the number 2 and the time 30000 while the event of
time 29999 is still in the queue and becomes number 3. -/
theorem heartbeat_overtakes :
    let accepted := ((Station.boot {}).run Platform.online turnAroundBeat).application.accepted
    accepted.map (fun e => (e.sequenceId, e.timestampMs)) = [(1, 29999), (2, 30000), (3, 29999)] ∧
      ¬ accepted.Pairwise (fun x y => x.sequenceId < y.sequenceId →
        x.timestampMs ≤ y.timestampMs) := by
  decide +kernel

end KaizenStation.EndToEnd
