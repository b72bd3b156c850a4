/-
KaizenStation.EndToEnd.Coalescing — does the ERP notice that buffered events
were coalesced?

The store coalesces by source, the adapter dispatches on the type. What links
the two is the table of inputs: all types of one physical source write the
same fields (`SourceWise`), so the last event that writes a field survives,
whatever the pops did in between. The record that the popped events leave is
then the one that all pushed events leave, and the last command carries the
same output (`coalescing_preserves_erp`).
-/
import KaizenStation.Firmware.DeliveryTheorems
import KaizenStation.Backend.ServiceTheorems
import KaizenStation.EndToEnd.Wire

namespace KaizenStation.EndToEnd

open KaizenStation.Foundation KaizenStation.Firmware KaizenStation.Backend

/-! ## What the store hands back -/

/-- The event a call pushes. -/
def pushed? : StoreCall → Option Event
  | .push event => some event
  | _ => none

/-- Without a clear and with every push accepted, the accepted events are the
pushed ones. -/
theorem run_accepted (o : Observed) {calls : List StoreCall}
    (hclear : ∀ call ∈ calls, call ≠ .clear)
    (hstored : ∀ before event after, calls = before ++ .push event :: after →
      ((o.run before).store.push event).2 = true) :
    (o.run calls).accepted = o.accepted ++ calls.filterMap pushed? := by
  induction calls generalizing o with
  | nil => exact (List.append_nil _).symm
  | cons call calls ih =>
    have hrest := ih (o.step call) (fun c hc => hclear c (List.mem_cons_of_mem _ hc))
      fun before event after hsplit => hstored (call :: before) event after (by rw [hsplit]; rfl)
    show ((o.step call).run calls).accepted = _
    rw [hrest]
    cases call with
    | push event =>
      have hpush := hstored [] event calls rfl
      have hpush' : (o.store.push event).2 = true := hpush
      simp [Observed.step, hpush', pushed?]
    | pop => rfl
    | peek => rfl
    | clear => exact absurd rfl (hclear .clear List.mem_cons_self)

/-! ## What the adapter makes of it -/

/-- Events as the adapter is given them, all with one ingress time. -/
def replay (config : DeviceConfig) (receivedAtNs : Option Int) (events : List Event) :
    List (StationEvent × Option Int) :=
  events.filterMap fun event => (stationEvent config event).map (·, receivedAtNs)

/-- Of the types of one physical source, all or none have the property. -/
def SourceWise (p : InputKind → Bool) : Prop :=
  ∀ k ∈ InputKind.all, ∀ k' ∈ InputKind.all, (INPUTS k).1 = (INPUTS k').1 → (INPUTS k).1 ≠ 0 →
    p k = true → p k' = true

instance (p : InputKind → Bool) : Decidable (SourceWise p) := by
  unfold SourceWise
  infer_instance

theorem InputKind.mem_all (kind : InputKind) : kind ∈ InputKind.all := by
  cases kind <;> decide

theorem mem_replay_device {config : DeviceConfig} {receivedAtNs : Option Int}
    {events : List Event} : ∀ x ∈ replay config receivedAtNs events,
    x.1.deviceId = config.deviceId.text := by
  intro x hx
  obtain ⟨event, -, hevent⟩ := List.mem_filterMap.mp hx
  obtain ⟨received, hreceived, rfl⟩ := Option.map_eq_some_iff.mp hevent
  exact stationEvent_deviceId hreceived

section Coalesced

variable (config : DeviceConfig) {whole popped : List Event}

/-- The events of one source write the same fields. -/
theorem sourceWise_sameKey {p : InputKind → Bool} (hp : SourceWise p) {a b : Event}
    {ka kb : InputKind} (ha : FitsInputs a ka) (hb : FitsInputs b kb)
    (h : SameKey Event.key a b) (hka : p ka = true) : p kb = true := by
  obtain ⟨hsource, hne⟩ := sameKey_iff.mp h
  have hab : (INPUTS ka).1 = (INPUTS kb).1 := by rw [← ha.source, ← hb.source, hsource]
  refine hp ka (InputKind.mem_all ka) kb (InputKind.mem_all kb) hab ?_ hka
  rw [← ha.source]
  intro hzero
  have hzero' : a.sourceId.toNat = 0 := by exact_mod_cast hzero
  exact hne (hsource ▸ UInt32.toNat_inj.mp hzero')

/-- What types of one source write together is written last by the same
event. -/
theorem replay_lastWrite (h : Coalesced Event.key whole popped)
    (hfits : ∀ e ∈ whole, ∃ kind, FitsInputs e kind) (receivedAtNs : Option Int) {γ : Type}
    {value? : StationEvent × Option Int → Option γ} (p : InputKind → Bool) (hp : SourceWise p)
    (hvalue : ∀ received, (value? (received, receivedAtNs)).isSome = p received.eventType) :
    lastWrite value? (replay config receivedAtNs popped) =
      lastWrite value? (replay config receivedAtNs whole) := by
  have hsome : ∀ {e : Event} {kind : InputKind}, FitsInputs e kind →
      (((stationEvent config e).map (·, receivedAtNs)).bind value?).isSome = p kind := by
    intro e kind hk
    obtain ⟨received, hreceived, htype, -⟩ := hk.received config
    rw [hreceived, ← htype]
    exact hvalue received
  rw [replay, replay, lastWrite_filterMap, lastWrite_filterMap, h.lastWrite]
  intro a ha b hb hkey hsomea
  obtain ⟨ka, hka⟩ := hfits a ha
  obtain ⟨kb, hkb⟩ := hfits b hb
  rw [hsome hka] at hsomea
  rw [hsome hkb]
  exact sourceWise_sameKey hp hka hkb hkey hsomea

/-- Coalesced or not, the events leave the same value in a field that types of
one source write together. -/
theorem replay_field (h : Coalesced Event.key whole popped)
    (hfits : ∀ e ∈ whole, ∃ kind, FitsInputs e kind) (receivedAtNs : Option Int) {γ : Type}
    {get : Workstation → γ} {value? : StationEvent × Option Int → Option γ}
    (hw : Writes get Workstation.apply value?) (p : InputKind → Bool) (hp : SourceWise p)
    (hvalue : ∀ received, (value? (received, receivedAtNs)).isSome = p received.eventType)
    (state : Workstation) :
    get ((replay config receivedAtNs popped).foldl Workstation.apply state) =
      get ((replay config receivedAtNs whole).foldl Workstation.apply state) := by
  rw [hw.foldl, hw.foldl, replay_lastWrite config h hfits receivedAtNs p hp hvalue]

/-- Coalesced or not, the events leave the same record. -/
theorem replay_record (h : Coalesced Event.key whole popped)
    (hfits : ∀ e ∈ whole, ∃ kind, FitsInputs e kind) (receivedAtNs : Option Int)
    (state : Workstation) :
    (replay config receivedAtNs popped).foldl Workstation.apply state =
      (replay config receivedAtNs whole).foldl Workstation.apply state := by
  apply Workstation.ext
  · refine replay_field config h hfits receivedAtNs Workstation.writes_buttonPressed
      (fun k => k == .buttonPressed || k == .buttonReleased) (by decide) ?_ state
    intro received
    cases hk : received.eventType <;> simp [StationEvent.button?, hk]
  · refine replay_field config h hfits receivedAtNs Workstation.writes_taskDone
      (fun k => k == .toggleChanged) (by decide) ?_ state
    intro received
    cases hk : received.eventType <;> simp [StationEvent.toggle?, hk]
  · refine replay_field config h hfits receivedAtNs Workstation.writes_targetCount
      (fun k => k == .encoderChanged) (by decide) ?_ state
    intro received
    cases hk : received.eventType <;> simp [StationEvent.encoder?, hk]
  · refine replay_field config h hfits receivedAtNs Workstation.writes_progressPercent
      (fun k => k == .analogChanged) (by decide) ?_ state
    intro received
    cases hk : received.eventType <;> simp [StationEvent.analog?, hk]
  · refine replay_field config h hfits receivedAtNs Workstation.writes_desiredOutput
      (fun k => k == .toggleChanged) (by decide) ?_ state
    intro received
    cases hk : received.eventType <;> simp [StationEvent.toggle?, hk]
  · refine replay_field config h hfits receivedAtNs Workstation.writes_freeHeapBytes
      (fun k => k == .heartbeat) (by decide) ?_ state
    intro received
    cases hk : received.eventType <;> simp [StationEvent.heap?, hk]
  · exact replay_field config h hfits receivedAtNs Workstation.writes_lastDeviceUptimeMs
      (fun _ => true) (by decide) (fun _ => rfl) state
  · refine replay_field config h hfits receivedAtNs Workstation.writes_faultCode
      (fun k => k == .faultDetected) (by decide) ?_ state
    intro received
    cases hk : received.eventType <;> simp [StationEvent.fault?, hk]
  · exact replay_field config h hfits receivedAtNs Workstation.writes_receivedAtNs
      (fun _ => receivedAtNs.isSome) (fun _ _ _ _ _ _ h => h) (fun _ => rfl) state

theorem replay_asks (h : Coalesced Event.key whole popped)
    (hfits : ∀ e ∈ whole, ∃ kind, FitsInputs e kind) (receivedAtNs : Option Int) :
    lastWrite (fun x => x.1.asks?) (replay config receivedAtNs popped) =
      lastWrite (fun x => x.1.asks?) (replay config receivedAtNs whole) := by
  refine replay_lastWrite config h hfits receivedAtNs
    (fun k => k == .toggleChanged || k == .syncRequested) (by decide) ?_
  intro received
  cases hk : received.eventType <;> simp [StationEvent.asks?, hk]

end Coalesced

/-- The last publication of a replay, read as a command, carries the final
desired output. -/
theorem last_publication {loads : Loads} (hl : loads.Standard) {config : DeviceConfig}
    (hcfg : ValidConfig config) (adapter : MockOdooAdapter) (receivedAtNs : Option Int)
    (events : List Event) {c : Publication}
    (hc : c ∈ (adapter.publications loads (replay config receivedAtNs events)).getLast?) :
    ∃ name, parseCommand loads (.str c.2) = .ok (name,
      ((replay config receivedAtNs events).foldl Workstation.apply
        (adapter.record config.deviceId.text)).desiredOutput) := by
  rw [MockOdooAdapter.publications_eq hl adapter hcfg.device mem_replay_device,
    List.getLast?_map] at hc
  obtain ⟨⟨on, name⟩, hlast, rfl⟩ := Option.map_eq_some_iff.mp hc
  have hout := Workstation.commands_last (adapter.record config.deviceId.text)
    (replay config receivedAtNs events)
  rw [hlast] at hout
  obtain ⟨-, -, hon⟩ := Option.map_eq_some_iff.mp hout.symm
  refine ⟨name, ?_⟩
  rw [hon]
  exact parseCommand_dumps hl name on (.inl rfl)

/-- Something is published exactly if some event asks for a command. -/
theorem publications_nil {loads : Loads} (hl : loads.Standard) {config : DeviceConfig}
    (hcfg : ValidConfig config) (adapter : MockOdooAdapter) (receivedAtNs : Option Int)
    (events : List Event) :
    adapter.publications loads (replay config receivedAtNs events) = [] ↔
      lastWrite (fun x => x.1.asks?) (replay config receivedAtNs events) = none := by
  have hout := Workstation.commands_last (adapter.record config.deviceId.text)
    (replay config receivedAtNs events)
  rw [MockOdooAdapter.publications_eq hl adapter hcfg.device mem_replay_device,
    List.map_eq_nil_iff, ← List.getLast?_eq_none_iff]
  constructor
  · intro h
    rw [h] at hout
    simpa using hout.symm
  · intro h
    rw [h] at hout
    simpa using hout

/-- The events a store hands back, with pops at any moments and no push
refused, leave the record that all pushed events leave, and the last command
they make the adapter publish carries the same output. -/
theorem coalescing_preserves_erp (loads : Loads) (hl : loads.Standard) (config : DeviceConfig)
    (hcfg : ValidConfig config) (capacity : Nat) (calls : List StoreCall)
    (hclear : ∀ call ∈ calls, call ≠ .clear)
    (hstored : ∀ before event after, calls = before ++ .push event :: after →
      (((Observed.fresh capacity).run before).store.push event).2 = true)
    (hempty : ((Observed.fresh capacity).run calls).store.empty = true)
    (hfits : ∀ e ∈ calls.filterMap pushed?, ∃ kind, FitsInputs e kind)
    (adapter : MockOdooAdapter) (receivedAtNs : Option Int) :
    let whole := replay config receivedAtNs (calls.filterMap pushed?)
    let popped := replay config receivedAtNs ((Observed.fresh capacity).run calls).popped
    (adapter.handleEvents loads popped).record config.deviceId.text =
      (adapter.handleEvents loads whole).record config.deviceId.text ∧
    (adapter.publications loads popped = [] ↔ adapter.publications loads whole = []) ∧
    ∀ c ∈ (adapter.publications loads popped).getLast?,
      ∀ c' ∈ (adapter.publications loads whole).getLast?,
        ∃ on name name', parseCommand loads (.str c.2) = .ok (name, on) ∧
          parseCommand loads (.str c'.2) = .ok (name', on) := by
  intro whole popped
  obtain ⟨h, hr⟩ := Observed.fresh_run_represents capacity calls
  have hnil : ((Observed.fresh capacity).run calls).store.events = [] := by
    rw [OfflineEventStore.empty_of_mutex hr.mutex] at hempty
    exact List.isEmpty_iff.mp hempty
  have hcoalesced := hr.coalesced
  rw [hnil, List.append_nil, run_accepted (Observed.fresh capacity) hclear hstored] at hcoalesced
  have hrecord := replay_record config hcoalesced hfits receivedAtNs
    (adapter.record config.deviceId.text)
  have hasks := replay_asks config hcoalesced hfits receivedAtNs
  refine ⟨?_, ?_, ?_⟩
  · rw [MockOdooAdapter.record_handleEvents loads adapter mem_replay_device,
      MockOdooAdapter.record_handleEvents loads adapter mem_replay_device]
    exact hrecord
  · rw [publications_nil hl hcfg, publications_nil hl hcfg]
    exact Iff.of_eq (congrArg (· = none) hasks)
  · intro c hc c' hc'
    obtain ⟨name, hparse⟩ := last_publication hl hcfg adapter receivedAtNs _ hc
    obtain ⟨name', hparse'⟩ := last_publication hl hcfg adapter receivedAtNs _ hc'
    exact ⟨_, name, name', hparse, hrecord ▸ hparse'⟩

/-- The toggle is switched on and off again before the store is emptied. -/
def toggledTwice : List StoreCall :=
  [.push toggledOn, .push { type := .toggleChanged, sourceId := 2, value := 0 }, .pop]

theorem coalescing_preserves_erp_toggle :
    (({} : MockOdooAdapter).handleEvents Loads.reference (replay defaultConfig (some 5)
        ((Observed.fresh 4).run toggledTwice).popped)).record "station_01" =
      (({} : MockOdooAdapter).handleEvents Loads.reference (replay defaultConfig (some 5)
        (toggledTwice.filterMap pushed?))).record "station_01" := by
  refine (coalescing_preserves_erp Loads.reference Loads.reference_standard defaultConfig
    defaultConfig_valid 4 toggledTwice ?_ ?_ (by decide) ?_ {} (some 5)).1
  · intro call hcall
    simp only [toggledTwice, List.mem_cons, List.not_mem_nil, or_false] at hcall
    rcases hcall with rfl | rfl | rfl <;> simp
  · intro before event after hsplit
    match before, hsplit with
    | [], h => cases h; decide
    | [_], h => cases h; decide
    | [_, _], h => cases h
    | _ :: _ :: _ :: rest, h => cases rest <;> cases h
  · intro e he
    refine ⟨.toggleChanged, ?_⟩
    simp only [toggledTwice, pushed?, List.filterMap_cons, List.filterMap_nil, List.mem_cons,
      List.not_mem_nil, or_false] at he
    rcases he with rfl | rfl
    · exact ⟨rfl, rfl, by decide, by decide⟩
    · exact ⟨rfl, rfl, by decide, by decide⟩

end KaizenStation.EndToEnd
