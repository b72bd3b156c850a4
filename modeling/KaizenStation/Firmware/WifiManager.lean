/-
KaizenStation.Firmware.WifiManager — the connection logic of
`network/WifiManager.cpp`.

The driver of ESP-IDF is outside the source tree. A function returns the
calls of `esp_wifi_connect` and `esp_wifi_disconnect` it makes, and
`WifiSession` runs the manager against a driver that answers any status to
each of them. Calls and handler runs are single steps. `WifiTasks` starts
before `initialize()` and keeps the driver's events apart from their handling:
an event that was posted is handled at some later step, or never.

Neither `started` nor `outstanding` is state of the class: whether STA_START
has been handled, and whether some accepted `esp_wifi_connect` has not been
answered by a later STA_DISCONNECTED. The class keeps no timer and no other
record of a retry.
-/
import KaizenStation.Firmware.Event

namespace KaizenStation.Firmware

/-- The events `handleWifiEvent` tells apart. -/
inductive WifiEvent where
  | staStart
  | staDisconnected
  | gotIp
  | other
  deriving DecidableEq

/-- What the manager asks of the driver. -/
inductive DriverCall where
  | connect
  | disconnect
  deriving DecidableEq

/-- `ESP_OK`. -/
def ESP_OK : Int := 0

/-- `ESP_ERR_INVALID_STATE`. -/
def ESP_ERR_INVALID_STATE : Int := 0x103

/-- The answers of ESP-IDF to `initialize()`, in the order of the calls. -/
structure InitAnswers where
  netifInit : Int
  eventLoopCreateDefault : Int
  /-- `esp_netif_create_default_wifi_sta` returned an interface. -/
  netif : Bool
  wifiInit : Int
  registerWifi : Int
  registerIp : Int
  setMode : Int
  setConfig : Int
  start : Int

/-- `class WifiManager`, with the header's member initialisers. -/
structure WifiManager where
  initialized : Bool := false
  connected : Bool := false
  reconnectEnabled : Bool := true
  deriving DecidableEq

namespace WifiManager

/-- `WifiManager::isConnected`. -/
def isConnected (m : WifiManager) : Bool := m.connected

/-- `WifiManager::initialize`. -/
def init (m : WifiManager) (answers : InitAnswers) : WifiManager × Bool :=
  if m.initialized then (m, true)
  else if answers.netifInit ≠ ESP_OK then (m, false)
  else if answers.eventLoopCreateDefault ≠ ESP_OK ∧
      answers.eventLoopCreateDefault ≠ ESP_ERR_INVALID_STATE then (m, false)
  else if !answers.netif then (m, false)
  else if answers.wifiInit ≠ ESP_OK then (m, false)
  else if answers.registerWifi ≠ ESP_OK then (m, false)
  else if answers.registerIp ≠ ESP_OK then (m, false)
  else if answers.setMode ≠ ESP_OK then (m, false)
  else if answers.setConfig ≠ ESP_OK then (m, false)
  else if answers.start ≠ ESP_OK then (m, false)
  else ({ m with initialized := true }, true)

/-- `WifiManager::connect`; `status` is what `esp_wifi_connect` answers. -/
def connect (m : WifiManager) (status : Int) : WifiManager × Bool × List DriverCall :=
  if !m.initialized then (m, false, [])
  else ({ m with reconnectEnabled := true }, decide (status = ESP_OK), [.connect])

/-- `WifiManager::disconnect`. -/
def disconnect (m : WifiManager) : WifiManager × List DriverCall :=
  if !m.initialized then (m, [])
  else ({ m with reconnectEnabled := false }, [.disconnect])

/-- `WifiManager::publishConnectionEvent`. The answer of the queue is not
used. -/
def publishConnectionEvent (m : WifiManager) (eventQueue : EventQueue) (type : EventType)
    (now : UInt64) : EventQueue :=
  (eventQueue.send (connectionEvent type m.connected now)).1

/-- `WifiManager::handleWifiEvent`. What `esp_wifi_connect` answers only
decides a log line. -/
def handleWifiEvent (m : WifiManager) (eventQueue : EventQueue) (event : WifiEvent)
    (now : UInt64) : WifiManager × EventQueue × List DriverCall :=
  match event with
  | .staStart => (m, eventQueue, [.connect])
  | .staDisconnected =>
    let m := { m with connected := false }
    let eventQueue := m.publishConnectionEvent eventQueue .wifiDisconnected now
    (m, eventQueue, if m.reconnectEnabled then [.connect] else [])
  | .gotIp =>
    let m := { m with connected := true }
    (m, m.publishConnectionEvent eventQueue .wifiConnected now, [])
  | .other => (m, eventQueue, [])

end WifiManager

structure WifiSession where
  manager : WifiManager
  eventQueue : EventQueue
  started : Bool := false
  outstanding : Bool := false

inductive WifiAct where
  /-- `connect()`; the driver answers `status`. -/
  | connect (status : Int)
  | disconnect
  /-- The driver's event is handled; `status` answers the `esp_wifi_connect`
  of the handler, if there is one. -/
  | event (event : WifiEvent) (status : Int) (now : UInt64)
  /-- The central task takes an event. -/
  | receive

namespace WifiSession

/-- An accepted connect request is open until STA_DISCONNECTED. -/
def driven (s : WifiSession) (calls : List DriverCall) (status : Int) : WifiSession :=
  { s with outstanding := s.outstanding || (calls.contains .connect && decide (status = ESP_OK)) }

def step (s : WifiSession) : WifiAct → WifiSession
  | .connect status =>
    let (manager, _, calls) := s.manager.connect status
    { s with manager := manager }.driven calls status
  | .disconnect =>
    let (manager, calls) := s.manager.disconnect
    { s with manager := manager }.driven calls ESP_OK
  | .event event status now =>
    let (manager, eventQueue, calls) := s.manager.handleWifiEvent s.eventQueue event now
    { s with
      manager := manager
      eventQueue := eventQueue
      started := s.started || event == WifiEvent.staStart
      outstanding := s.outstanding && event != WifiEvent.staDisconnected }.driven calls status
  | .receive => { s with eventQueue := s.eventQueue.receive.1 }

def run (s : WifiSession) (acts : List WifiAct) : WifiSession := acts.foldl step s

/-- The manager when `initialize()` has returned true. -/
def start (eventQueue : EventQueue) : WifiSession where
  manager := { initialized := true }
  eventQueue := eventQueue

end WifiSession

/-! ## Events that wait to be handled -/

structure WifiTasks where
  manager : WifiManager := {}
  eventQueue : EventQueue
  /-- Events of the driver that are still to be handled. -/
  posted : List WifiEvent := []

inductive WifiTaskAct where
  | init (answers : InitAnswers)
  /-- `connect()`; the driver answers `status`. -/
  | connect (status : Int)
  | disconnect
  /-- The driver posts an event. -/
  | post (event : WifiEvent)
  /-- The handler runs for one of the posted events. -/
  | handle (index : Nat) (now : UInt64)
  /-- The central task takes an event. -/
  | receive

namespace WifiTasks

/-- What the handler asks of the driver when it runs for a posted event. -/
def handlerCalls (s : WifiTasks) (index : Nat) (now : UInt64) : List DriverCall :=
  match s.posted[index]? with
  | some event => (s.manager.handleWifiEvent s.eventQueue event now).2.2
  | none => []

def step (s : WifiTasks) : WifiTaskAct → WifiTasks
  | .init answers => { s with manager := (s.manager.init answers).1 }
  | .connect status => { s with manager := (s.manager.connect status).1 }
  | .disconnect => { s with manager := s.manager.disconnect.1 }
  | .post event => { s with posted := s.posted ++ [event] }
  | .handle index now =>
    match s.posted[index]? with
    | some event =>
      let (manager, eventQueue, _) := s.manager.handleWifiEvent s.eventQueue event now
      { manager := manager, eventQueue := eventQueue, posted := s.posted.eraseIdx index }
    | none => s
  | .receive => { s with eventQueue := s.eventQueue.receive.1 }

def run (s : WifiTasks) (acts : List WifiTaskAct) : WifiTasks := acts.foldl step s

/-- The manager when it has been constructed. -/
def start (eventQueue : EventQueue) : WifiTasks where
  eventQueue := eventQueue

end WifiTasks

end KaizenStation.Firmware
