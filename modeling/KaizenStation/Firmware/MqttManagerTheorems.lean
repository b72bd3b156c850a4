/-
KaizenStation.Firmware.MqttManagerTheorems — is every connection subscribed?

The handler of a connect event announces the connection before it asks for
the subscription, and does not look at the answer. `Stage` lists what can be
left of a handler and what is known there; a subscription request that the
client refuses is the one step out of it, and leaves the station online
without a subscription (`every_connection_subscribed`).
-/
import KaizenStation.Foundation.Invariant
import KaizenStation.Firmware.MqttManager

namespace KaizenStation.Firmware

open KaizenStation.Foundation

namespace MqttSession

/-- Online and at rest, the station has asked for its commands. -/
def Subscribed (s : MqttSession) : Prop :=
  s.handler = [] → s.manager.isConnected = true → s.manager.commandTopic ∈ s.requested

/-- The next statement is the subscription, and the client refuses it. -/
def Refuses (s : MqttSession) (act : MqttAct) : Prop :=
  s.handler.head? = some .subscribe ∧ ∃ messageId now, act = .handler messageId now ∧ messageId < 0

/-- Where a handler can be, and what is known there. -/
inductive Stage (s : MqttSession) : Prop where
  | connecting : s.handler = MqttManager.handleEvent .connected → s.requested = [] → Stage s
  | notifying : s.handler = [.publishConnectionEvent .mqttConnected, .subscribe] →
      s.manager.connected = true → s.requested = [] → Stage s
  | subscribing : s.handler = [.subscribe] →
      s.manager.connected = true → s.requested = [] → Stage s
  | closing : s.handler = MqttManager.handleEvent .disconnected → Stage s
  | closed : s.handler = [.publishConnectionEvent .mqttDisconnected] →
      s.manager.connected = false → Stage s
  | receiving (message : MqttMessage) : s.handler = [.handleIncomingMessage message] →
      (s.manager.connected = true → s.manager.commandTopic ∈ s.requested) → Stage s
  | idle : s.handler = [] →
      (s.manager.connected = true → s.manager.commandTopic ∈ s.requested) → Stage s

theorem Stage.subscribed {s : MqttSession} (h : s.Stage) : s.Subscribed := by
  intro hidle hconnected
  cases h with
  | connecting hh _ => rw [hidle] at hh; cases hh
  | notifying hh _ _ => rw [hidle] at hh; cases hh
  | subscribing hh _ _ => rw [hidle] at hh; cases hh
  | closing hh => rw [hidle] at hh; cases hh
  | closed hh _ => rw [hidle] at hh; cases hh
  | receiving _ hh _ => rw [hidle] at hh; cases hh
  | idle _ hr => exact hr hconnected

/-- The stage is a matter of the handler, the connection and the requests. -/
theorem Stage.congr {s s' : MqttSession} (h : s.Stage) (hm : s'.manager = s.manager)
    (hh : s'.handler = s.handler) (hr : s'.requested = s.requested) : s'.Stage := by
  cases h with
  | connecting h₁ h₂ => exact .connecting (hh.trans h₁) (hr.trans h₂)
  | notifying h₁ h₂ h₃ => exact .notifying (hh.trans h₁) (by rw [hm, h₂]) (hr.trans h₃)
  | subscribing h₁ h₂ h₃ => exact .subscribing (hh.trans h₁) (by rw [hm, h₂]) (hr.trans h₃)
  | closing h₁ => exact .closing (hh.trans h₁)
  | closed h₁ h₂ => exact .closed (hh.trans h₁) (by rw [hm, h₂])
  | receiving message h₁ h₂ => exact .receiving message (hh.trans h₁) (by rw [hm, hr]; exact h₂)
  | idle h₁ h₂ => exact .idle (hh.trans h₁) (by rw [hm, hr]; exact h₂)

variable (parse : CJsonParse)

theorem Stage.event {s : MqttSession} (h : s.Stage) (event : MqttEvent) :
    (s.step parse (.event event)).Stage := by
  cases hh : s.handler with
  | cons statement rest =>
    have he : s.step parse (.event event) = s := by simp [step, hh]
    rw [he]
    exact h
  | nil =>
    have he : s.step parse (.event event) = s.begin event := by simp [step, hh]
    rw [he]
    have hsub := h.subscribed hh
    cases event with
    | connected => exact .connecting rfl rfl
    | disconnected => exact .closing rfl
    | data message => exact .receiving message rfl hsub
    | error => exact .idle rfl hsub
    | other => exact .idle rfl hsub

/-- A statement that the client does not refuse leads to the next stage. -/
theorem Stage.handler {s : MqttSession} (h : s.Stage) (messageId : Int) (now : UInt64)
    (hok : ¬ s.Refuses (.handler messageId now)) :
    (s.step parse (.handler messageId now)).Stage := by
  cases h with
  | connecting hh hr =>
    simp only [step, hh, MqttManager.handleEvent, execute]
    exact .notifying rfl rfl hr
  | notifying hh hc hr =>
    simp only [step, hh, execute]
    exact .subscribing rfl hc hr
  | subscribing hh hc hr =>
    have hid : ¬ messageId < 0 := fun hlt => hok ⟨by rw [hh]; rfl, messageId, now, rfl, hlt⟩
    have hsub : s.manager.subscribe messageId = true := by
      simp [MqttManager.subscribe, hc, hid]
    simp only [step, hh, execute, hsub, if_true]
    refine .idle rfl fun _ => ?_
    show s.manager.commandTopic ∈ s.requested ++ [s.manager.commandTopic]
    simp
  | closing hh =>
    simp only [step, hh, MqttManager.handleEvent, execute]
    exact .closed rfl rfl
  | closed hh hc =>
    simp only [step, hh, execute]
    refine .idle rfl fun hconnected => ?_
    have hc' : s.manager.connected = true := hconnected
    rw [hc] at hc'
    cases hc'
  | receiving message hh hr =>
    simp only [step, hh, execute]
    exact .idle rfl hr
  | idle hh hr =>
    have he : s.step parse (.handler messageId now) = s := by simp [step, hh]
    rw [he]
    exact .idle hh hr

theorem Stage.step {s : MqttSession} (h : s.Stage) (act : MqttAct) (hok : ¬ s.Refuses act) :
    (s.step parse act).Stage := by
  cases act with
  | event event => exact h.event parse event
  | handler messageId now => exact h.handler parse messageId now hok
  | publish messageId => exact h.congr rfl rfl rfl
  | receive => exact h.congr rfl rfl rfl

/-- A refused subscription ends the handler with the station online and
nothing requested. -/
theorem Stage.refused {s : MqttSession} (h : s.Stage) (act : MqttAct) (hbad : s.Refuses act) :
    ¬ (s.step parse act).Subscribed := by
  obtain ⟨hhead, messageId, now, rfl, hlt⟩ := hbad
  cases h with
  | subscribing hh hc hr =>
    have hsub : s.manager.subscribe messageId = false := by
      simp [MqttManager.subscribe, hlt]
    simp only [MqttSession.step, hh, execute, hsub]
    intro hs
    have hmem := hs rfl hc
    rw [show (_ : List String) = [] from hr] at hmem
    cases hmem
  | connecting hh _ => rw [hh] at hhead; cases hhead
  | notifying hh _ _ => rw [hh] at hhead; cases hhead
  | closing hh => rw [hh] at hhead; cases hhead
  | closed hh _ => rw [hh] at hhead; cases hhead
  | receiving _ hh _ => rw [hh] at hhead; cases hhead
  | idle hh _ => rw [hh] at hhead; cases hhead

/-- The manager as it is before the first connection. -/
def start (deviceId : CString) (eventQueue : EventQueue) : MqttSession where
  manager := { deviceId := deviceId }
  eventQueue := eventQueue

theorem start_stage (deviceId : CString) (eventQueue : EventQueue) :
    (start deviceId eventQueue).Stage :=
  .idle rfl fun h => by cases h

end MqttSession

open MqttSession in
/-- Whatever the tasks do and the client answers, every connection is
subscribed throughout a run exactly if the client accepts every subscription
request of the run. -/
theorem every_connection_subscribed (parse : CJsonParse) (deviceId : CString)
    (eventQueue : EventQueue) (acts : List MqttAct) :
    (∀ before after, acts = before ++ after →
      ((start deviceId eventQueue).run parse before).handler = [] →
      ((start deviceId eventQueue).run parse before).manager.isConnected = true →
        ((start deviceId eventQueue).run parse before).manager.commandTopic ∈
          ((start deviceId eventQueue).run parse before).requested) ↔
    ∀ before messageId now after, acts = before ++ .handler messageId now :: after →
      ((start deviceId eventQueue).run parse before).handler.head? = some .subscribe →
        0 ≤ messageId := by
  have hgood : ∀ s act, Stage s → ¬ Refuses s act → Stage (step parse s act) :=
    fun _ act hs hok => hs.step parse act hok
  have hbad : ∀ s act, Stage s → Refuses s act → ¬ Subscribed (step parse s act) :=
    fun _ act hs hbad => hs.refused parse act hbad
  have hiff := throughout_iff (fun _ hs => Stage.subscribed hs) hgood hbad
    (start_stage deviceId eventQueue) acts
  constructor
  · intro h before messageId now after hsplit hhead
    by_contra hneg
    exact hiff.mp h before _ after hsplit ⟨hhead, messageId, now, rfl, by omega⟩
  · intro h
    refine hiff.mpr ?_
    rintro before act after hsplit ⟨hhead, messageId, now, rfl, hlt⟩
    exact absurd (h before messageId now after hsplit hhead) (by omega)

open MqttSession in
/-- The client connects with a full outbox and refuses the subscription. -/
theorem connection_not_subscribed :
    ¬ ∀ before after, [MqttAct.event .connected, .handler 0 5, .handler 0 6, .handler (-2) 7] =
          before ++ after →
        ((start defaultConfig.deviceId (EventQueue.create 32)).run (fun _ => none) before).handler =
          [] →
        ((start defaultConfig.deviceId (EventQueue.create 32)).run (fun _ => none)
          before).manager.isConnected = true →
        ((start defaultConfig.deviceId (EventQueue.create 32)).run (fun _ => none)
            before).manager.commandTopic ∈
          ((start defaultConfig.deviceId (EventQueue.create 32)).run (fun _ => none)
            before).requested := by
  intro h
  have hmem := h _ [] (List.append_nil _).symm rfl rfl
  cases hmem

end KaizenStation.Firmware
