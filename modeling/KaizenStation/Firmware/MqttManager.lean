/-
KaizenStation.Firmware.MqttManager — the MQTT side of the station,
`network/MqttManager.cpp`, once `initialize()` and `start()` have succeeded.

The client of ESP-IDF is outside the source tree: what it answers to a call
is an argument (`messageId`, negative for a refusal), and its events are
given. Its task runs one handler at a time, the central task publishes in
between, so a handler is kept as the list of its statements and `MqttSession`
is the manager with what is left of the running handler.

Neither `requested` nor `answers` is state of the class: the topics for which
the client has accepted a subscription request since the latest connect event,
and what the central task was told about its publications.
-/
import KaizenStation.Firmware.CommandParser
import KaizenStation.Firmware.MessageSerializer

namespace KaizenStation.Firmware

/-- The part of `esp_mqtt_event_t` that a data event brings. A null pointer
is `none`; lengths are those of the byte arrays. -/
structure MqttMessage where
  topic : Option ByteArray
  data : Option ByteArray
  currentDataOffset : Int
  totalDataLen : Int
  retain : Bool

/-- The events that `handleEvent` looks at. -/
inductive MqttEvent where
  | connected
  | disconnected
  | data (message : MqttMessage)
  | error
  /-- Any event of the `default` branch. -/
  | other

/-- `class MqttManager`. The client handle exists once `initialize()` has
succeeded. -/
structure MqttManager where
  deviceId : CString
  connected : Bool := false

namespace MqttManager

/-- `MqttManager::commandTopic`. -/
def commandTopic (m : MqttManager) : String :=
  MQTT_BASE_TOPIC ++ "/" ++ m.deviceId.text ++ "/commands"

/-- `MqttManager::isConnected`. -/
def isConnected (m : MqttManager) : Bool := m.connected

/-- `MqttManager::publish`; `messageId` is what `esp_mqtt_client_enqueue`
answers if it is called. -/
def publish (m : MqttManager) (messageId : Int) : Bool :=
  if !m.connected then false else !decide (messageId < 0)

/-- `MqttManager::subscribe`; `messageId` is what `esp_mqtt_client_subscribe`
answers if it is called. -/
def subscribe (m : MqttManager) (messageId : Int) : Bool :=
  if !m.connected then false else !decide (messageId < 0)

/-- `MqttManager::publishConnectionEvent`. The answer of the queue is not
used. -/
def publishConnectionEvent (m : MqttManager) (eventQueue : EventQueue) (type : EventType)
    (now : UInt64) : EventQueue :=
  (eventQueue.send (connectionEvent type m.connected now)).1

/-- `MqttManager::handleIncomingMessage`. -/
def handleIncomingMessage (parse : CJsonParse) (m : MqttManager) (eventQueue : EventQueue)
    (message : MqttMessage) (now : UInt64) : EventQueue :=
  match message.data, message.topic with
  | some data, some topic =>
    if data.size = 0 ∨ data.size > 512 ∨ message.currentDataOffset ≠ 0 ∨
        message.totalDataLen ≠ data.size ∨ message.retain = true ∨ topic.size = 0 ∨
        topic.data ≠ m.commandTopic.toUTF8.data then
      eventQueue
    else
      let (parsed, commandEvent) := MessageSerializer.parseCommand parse now data {}
      if !parsed then eventQueue else (eventQueue.send commandEvent).1
  | _, _ => eventQueue

/-! ## Handlers -/

inductive Statement where
  | setConnected (connected : Bool)
  | publishConnectionEvent (type : EventType)
  | subscribe
  | handleIncomingMessage (message : MqttMessage)

/-- `MqttManager::handleEvent`, statement by statement. -/
def handleEvent : MqttEvent → List Statement
  | .connected => [.setConnected true, .publishConnectionEvent .mqttConnected, .subscribe]
  | .disconnected => [.setConnected false, .publishConnectionEvent .mqttDisconnected]
  | .data message => [.handleIncomingMessage message]
  | .error => []
  | .other => []

end MqttManager

structure MqttSession where
  manager : MqttManager
  eventQueue : EventQueue
  handler : List MqttManager.Statement := []
  requested : List String := []
  answers : List Bool := []

/-- A step of one of the tasks. -/
inductive MqttAct where
  /-- The client calls the handler with an event; while a handler runs it
  calls none. -/
  | event (event : MqttEvent)
  /-- The next statement of the running handler. -/
  | handler (messageId : Int) (now : UInt64)
  /-- The central task publishes. -/
  | publish (messageId : Int)
  /-- The central task takes an event. -/
  | receive

namespace MqttSession

variable (parse : CJsonParse)

/-- One statement of a handler. The result of `subscribe` is not used. -/
def execute (s : MqttSession) (messageId : Int) (now : UInt64) : MqttManager.Statement → MqttSession
  | .setConnected connected => { s with manager := { s.manager with connected := connected } }
  | .publishConnectionEvent type =>
    { s with eventQueue := s.manager.publishConnectionEvent s.eventQueue type now }
  | .subscribe =>
    { s with requested := if s.manager.subscribe messageId then
        s.requested ++ [s.manager.commandTopic] else s.requested }
  | .handleIncomingMessage message =>
    { s with eventQueue := s.manager.handleIncomingMessage parse s.eventQueue message now }

/-- The client calls the handler. A connect event starts a new connection. -/
def begin (s : MqttSession) (event : MqttEvent) : MqttSession :=
  { s with
    handler := MqttManager.handleEvent event
    requested := match event with
      | .connected => []
      | _ => s.requested }

def step (s : MqttSession) : MqttAct → MqttSession
  | .event event =>
    match s.handler with
    | [] => s.begin event
    | _ => s
  | .handler messageId now =>
    match s.handler with
    | [] => s
    | statement :: rest => ({ s with handler := rest }).execute parse messageId now statement
  | .publish messageId => { s with answers := s.answers ++ [s.manager.publish messageId] }
  | .receive => { s with eventQueue := s.eventQueue.receive.1 }

def run (s : MqttSession) (acts : List MqttAct) : MqttSession := acts.foldl (step parse) s

end MqttSession

end KaizenStation.Firmware
