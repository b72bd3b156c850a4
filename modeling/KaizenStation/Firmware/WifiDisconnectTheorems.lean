/-
KaizenStation.Firmware.WifiDisconnectTheorems — is an explicit disconnect
respected?

`disconnect()` clears `reconnectEnabled_`, and the STA_DISCONNECTED handler
asks that flag before it requests a connection. The STA_START handler does
not. So the handlers keep quiet between a disconnect and the next `connect()`
exactly if no STA_START that was posted before is handled in that time
(`wifi_disconnect_respected`).
-/
import KaizenStation.Foundation.Invariant
import KaizenStation.Firmware.WifiManager

namespace KaizenStation.Firmware

open KaizenStation.Foundation

namespace WifiTasks

/-- Disconnected on purpose. -/
structure Stopped (s : WifiTasks) : Prop where
  initialized : s.manager.initialized = true
  disabled : s.manager.reconnectEnabled = false

theorem Stopped.disconnect {s : WifiTasks} (h : s.manager.initialized = true) :
    (s.step .disconnect).Stopped := by
  constructor <;> simp [step, WifiManager.disconnect, h]

/-- No handler touches the two flags. -/
theorem handleWifiEvent_flags (m : WifiManager) (eventQueue : EventQueue) (event : WifiEvent)
    (now : UInt64) :
    (m.handleWifiEvent eventQueue event now).1.initialized = m.initialized ∧
      (m.handleWifiEvent eventQueue event now).1.reconnectEnabled = m.reconnectEnabled := by
  cases event <;> exact ⟨rfl, rfl⟩

/-- Only `connect()` enables reconnecting again. -/
theorem Stopped.step {s : WifiTasks} (h : s.Stopped) (act : WifiTaskAct)
    (hact : ¬ ∃ status, act = .connect status) : (s.step act).Stopped := by
  obtain ⟨hinit, hdisabled⟩ := h
  cases act with
  | init answers =>
    have hsame : s.manager.init answers = (s.manager, true) := by
      simp [WifiManager.init, hinit]
    constructor <;> simp [WifiTasks.step, hsame, hinit, hdisabled]
  | connect status => exact absurd ⟨status, rfl⟩ hact
  | disconnect => exact .disconnect hinit
  | post event => exact ⟨hinit, hdisabled⟩
  | handle index now =>
    cases hevent : s.posted[index]? with
    | none => constructor <;> simp [WifiTasks.step, hevent, hinit, hdisabled]
    | some event =>
      have hflags := handleWifiEvent_flags s.manager s.eventQueue event now
      constructor <;> simp [WifiTasks.step, hevent, hflags, hinit, hdisabled]
  | receive => exact ⟨hinit, hdisabled⟩

/-- From a disconnect to the next `connect()`. -/
theorem stopped_between {s : WifiTasks} (before between : List WifiTaskAct)
    (h : (s.run before).manager.initialized = true)
    (hbetween : ∀ status, .connect status ∉ between) :
    (s.run (before ++ .disconnect :: between)).Stopped := by
  have hnever : NeverBad WifiTasks.step (fun _ act => ∃ status, act = .connect status)
      ((s.run before).step .disconnect) between := by
    rintro before' act after' rfl ⟨status, rfl⟩
    exact hbetween status (by simp)
  have hlast := hnever.throughout (fun _ act hs hact => hs.step act hact)
    (Stopped.disconnect h) between [] (List.append_nil _).symm
  simpa [run] using hlast

/-- While stopped, a handler asks for a connection only at STA_START. -/
theorem Stopped.handlerCalls {s : WifiTasks} (h : s.Stopped) (index : Nat) (now : UInt64) :
    .connect ∈ s.handlerCalls index now ↔ s.posted[index]? = some .staStart := by
  unfold WifiTasks.handlerCalls
  cases s.posted[index]? with
  | none => simp
  | some event => cases event <;> simp [WifiManager.handleWifiEvent, h.disabled]

end WifiTasks

open WifiTasks in
/-- In every run, the handlers respect every disconnect of an initialized
manager until the next `connect()` exactly if none of them runs for STA_START
in that time. -/
theorem wifi_disconnect_respected (eventQueue : EventQueue) (acts : List WifiTaskAct) :
    (∀ before between index now after,
      acts = before ++ .disconnect :: between ++ .handle index now :: after →
      ((start eventQueue).run before).manager.initialized = true →
      (∀ status, .connect status ∉ between) →
        .connect ∉ ((start eventQueue).run (before ++ .disconnect :: between)).handlerCalls
          index now) ↔
    ∀ before between index now after,
      acts = before ++ .disconnect :: between ++ .handle index now :: after →
      ((start eventQueue).run before).manager.initialized = true →
      (∀ status, .connect status ∉ between) →
        ((start eventQueue).run (before ++ .disconnect :: between)).posted[index]? ≠
          some .staStart := by
  constructor
  · intro h before between index now after hsplit hinit hbetween
    have hstopped := stopped_between before between hinit hbetween
    exact fun hstart => h before between index now after hsplit hinit hbetween
      ((hstopped.handlerCalls index now).mpr hstart)
  · intro h before between index now after hsplit hinit hbetween
    have hstopped := stopped_between before between hinit hbetween
    exact fun hcall => h before between index now after hsplit hinit hbetween
      ((hstopped.handlerCalls index now).mp hcall)

/-- Every call of `initialize()` succeeds. -/
def initSucceeds : InitAnswers where
  netifInit := ESP_OK
  eventLoopCreateDefault := ESP_OK
  netif := true
  wifiInit := ESP_OK
  registerWifi := ESP_OK
  registerIp := ESP_OK
  setMode := ESP_OK
  setConfig := ESP_OK
  start := ESP_OK

open WifiTasks in
/-- `initialize()` starts the driver, which posts STA_START; the station is
told to disconnect before the event is handled. -/
theorem wifi_start_after_disconnect :
    ¬ ∀ before between index now after,
        [WifiTaskAct.init initSucceeds, .post .staStart, .disconnect, .handle 0 5] =
          before ++ .disconnect :: between ++ .handle index now :: after →
        ((start (EventQueue.create 32)).run before).manager.initialized = true →
        (∀ status, .connect status ∉ between) →
          .connect ∉ ((start (EventQueue.create 32)).run
            (before ++ .disconnect :: between)).handlerCalls index now := by
  intro h
  have hquiet := h [.init initSucceeds, .post .staStart] [] 0 5 [] rfl rfl
    (fun _ hin => by cases hin)
  exact hquiet (by decide)

end KaizenStation.Firmware
