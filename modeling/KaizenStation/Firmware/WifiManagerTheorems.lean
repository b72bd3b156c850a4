/-
KaizenStation.Firmware.WifiManagerTheorems — does reconnection get stuck?

Every way to lose a connection asks the driver for a new one, but the
request may be refused, and a refusal is only logged. The station stays
offline with nothing to wait for after a refused request that finds no other
one open, and in no other way (`wifi_never_stuck`).
-/
import KaizenStation.Foundation.Invariant
import KaizenStation.Firmware.WifiManager

namespace KaizenStation.Firmware

open KaizenStation.Foundation

namespace WifiSession

/-- An offline station that wants to reconnect has a request open. -/
def Trying (s : WifiSession) : Prop :=
  s.started = true → s.manager.reconnectEnabled = true → s.manager.isConnected = false →
    s.outstanding = true

/-- The act makes a connect request that is refused while the station is, or
is just going, offline, wants to reconnect and has no other request open. -/
def Refused (s : WifiSession) : WifiAct → Prop
  | .connect status =>
    status ≠ ESP_OK ∧ s.started = true ∧ s.manager.connected = false ∧ s.outstanding = false
  | .event .staStart status _ =>
    status ≠ ESP_OK ∧ s.manager.reconnectEnabled = true ∧ s.manager.connected = false ∧
      s.outstanding = false
  | .event .staDisconnected status _ =>
    status ≠ ESP_OK ∧ s.started = true ∧ s.manager.reconnectEnabled = true
  | _ => False

structure Live (s : WifiSession) : Prop where
  initialized : s.manager.initialized = true
  trying : s.Trying

/-- What a step does to an initialized manager, as far as `Trying` sees it. -/
theorem step_connect {s : WifiSession} (h : s.manager.initialized = true) (status : Int) :
    s.step (.connect status) = { s with
      manager := { s.manager with reconnectEnabled := true }
      outstanding := s.outstanding || decide (status = ESP_OK) } := by
  simp [step, WifiManager.connect, h, driven]

theorem step_disconnect {s : WifiSession} (h : s.manager.initialized = true) :
    s.step .disconnect = { s with
      manager := { s.manager with reconnectEnabled := false } } := by
  simp [step, WifiManager.disconnect, h, driven]

theorem step_staStart (s : WifiSession) (status : Int) (now : UInt64) :
    s.step (.event .staStart status now) = { s with
      started := true
      outstanding := s.outstanding || decide (status = ESP_OK) } := by
  have hne : (WifiEvent.staStart != WifiEvent.staDisconnected) = true := by decide
  simp [step, WifiManager.handleWifiEvent, driven, hne]

theorem step_staDisconnected (s : WifiSession) (status : Int) (now : UInt64) :
    let s' := s.step (.event .staDisconnected status now)
    s'.manager = { s.manager with connected := false } ∧ s'.started = s.started ∧
      s'.outstanding = (s.manager.reconnectEnabled && decide (status = ESP_OK)) := by
  cases h : s.manager.reconnectEnabled <;>
    simp [step, WifiManager.handleWifiEvent, driven, h]

theorem step_gotIp (s : WifiSession) (status : Int) (now : UInt64) :
    (s.step (.event .gotIp status now)).manager = { s.manager with connected := true } := rfl

theorem Live.step {s : WifiSession} (h : s.Live) (act : WifiAct) (hok : ¬ s.Refused act) :
    (s.step act).Live := by
  obtain ⟨hinit, htry⟩ := h
  cases act with
  | connect status =>
    rw [step_connect hinit]
    refine ⟨hinit, fun hstarted _ hoffline => ?_⟩
    by_cases hs : status = ESP_OK
    · simp [hs]
    · cases ho : s.outstanding with
      | true => rfl
      | false => exact absurd ⟨hs, hstarted, hoffline, ho⟩ hok
  | disconnect =>
    rw [step_disconnect hinit]
    refine ⟨hinit, fun _ henabled _ => ?_⟩
    cases henabled
  | event event status now =>
    cases event with
    | staStart =>
      rw [step_staStart]
      refine ⟨hinit, fun _ henabled hoffline => ?_⟩
      by_cases hs : status = ESP_OK
      · simp [hs]
      · cases ho : s.outstanding with
        | true => rfl
        | false => exact absurd ⟨hs, henabled, hoffline, ho⟩ hok
    | staDisconnected =>
      obtain ⟨hm, hs', ho⟩ := step_staDisconnected s status now
      refine ⟨by rw [hm]; exact hinit, fun hstarted henabled _ => ?_⟩
      rw [hm] at henabled
      have henabled' : s.manager.reconnectEnabled = true := henabled
      by_cases hs : status = ESP_OK
      · rw [ho, henabled', Bool.true_and]
        exact decide_eq_true hs
      · exact absurd ⟨hs, hs' ▸ hstarted, henabled'⟩ hok
    | gotIp =>
      have hm := step_gotIp s status now
      refine ⟨by rw [hm]; exact hinit, fun _ _ hoffline => ?_⟩
      rw [hm] at hoffline
      cases hoffline
    | other =>
      refine ⟨hinit, fun hstarted henabled hoffline => ?_⟩
      have hstarted' : s.started = true := by simpa [WifiSession.step, driven] using hstarted
      have ho := htry hstarted' henabled hoffline
      simp [WifiSession.step, driven, ho]
  | receive => exact ⟨hinit, htry⟩

theorem Live.refused {s : WifiSession} (h : s.Live) (act : WifiAct) (hbad : s.Refused act) :
    ¬ (s.step act).Trying := by
  intro htry
  cases act with
  | connect status =>
    obtain ⟨hs, hstarted, hoffline, ho⟩ := hbad
    rw [step_connect h.initialized] at htry
    have := htry hstarted rfl hoffline
    simp [ho, hs] at this
  | disconnect => exact hbad
  | event event status now =>
    cases event with
    | staStart =>
      obtain ⟨hs, henabled, hoffline, ho⟩ := hbad
      rw [step_staStart] at htry
      have := htry rfl henabled hoffline
      simp [ho, hs] at this
    | staDisconnected =>
      obtain ⟨hs, hstarted, henabled⟩ := hbad
      obtain ⟨hm, hs', ho⟩ := step_staDisconnected s status now
      have := htry (by rw [hs', hstarted]) (by rw [hm]; exact henabled) (by rw [hm]; rfl)
      simp [ho, hs] at this
    | gotIp => exact hbad
    | other => exact hbad
  | receive => exact hbad

theorem start_live (eventQueue : EventQueue) : (start eventQueue).Live :=
  ⟨rfl, fun h => by cases h⟩

end WifiSession

open WifiSession in
/-- Whatever is called and whatever the driver reports and answers, an
offline station that wants to reconnect always has a request open exactly if
no request of the run is refused that finds no other one open. -/
theorem wifi_never_stuck (eventQueue : EventQueue) (acts : List WifiAct) :
    (∀ before after, acts = before ++ after →
      ((start eventQueue).run before).started = true →
      ((start eventQueue).run before).manager.reconnectEnabled = true →
      ((start eventQueue).run before).manager.isConnected = false →
        ((start eventQueue).run before).outstanding = true) ↔
    ∀ before act after, acts = before ++ act :: after →
      ¬ ((start eventQueue).run before).Refused act := by
  have hgood : ∀ s act, Live s → ¬ Refused s act → Live (step s act) :=
    fun _ act hs hok => hs.step act hok
  have hbad : ∀ s act, Live s → Refused s act → ¬ Trying (step s act) :=
    fun _ act hs hbad => hs.refused act hbad
  exact throughout_iff (fun _ hs => hs.trying) hgood hbad (start_live eventQueue) acts

open WifiSession in
/-- The station connects, the access point goes away, and the driver refuses
the request made at once. -/
theorem wifi_stuck_after_refusal :
    ¬ ∀ before after,
        [WifiAct.event .staStart 0 1, .event .gotIp 0 2, .event .staDisconnected (-1) 3] =
          before ++ after →
        ((start (EventQueue.create 32)).run before).started = true →
        ((start (EventQueue.create 32)).run before).manager.reconnectEnabled = true →
        ((start (EventQueue.create 32)).run before).manager.isConnected = false →
          ((start (EventQueue.create 32)).run before).outstanding = true := by
  intro h
  have hopen := h _ [] (List.append_nil _).symm rfl rfl rfl
  cases hopen

end KaizenStation.Firmware
