/-
KaizenStation.EndToEnd.OutputAgreement — the output of a station and the
output that the ERP wants.

The backend answers an event or makes a remote change, and puts its command
into a channel; the station takes a message out, parses it into the event
queue, and later processes what it receives there. Steps of both sides, and
everything else that the station does, interleave freely. What is on its way
is a relay of the desired output (`step_simulated`): the newest command not
yet processed, or the output when there is none, is what the ERP wants. The
LED shows the output after every step of any run.
-/
import KaizenStation.Foundation.Relay
import KaizenStation.EndToEnd.CommandDelivery
import KaizenStation.EndToEnd.Redelivery

namespace KaizenStation.EndToEnd

open KaizenStation.Foundation KaizenStation.Backend KaizenStation.Firmware

/-! ## The two sides -/

structure Link where
  adapter : MockOdooAdapter
  /-- The publications on their way to the station, the oldest first. -/
  channel : List Publication
  eventQueue : EventQueue
  application : Application

/-- The link before anything has happened. -/
def Link.start (adapter : MockOdooAdapter) (capacity : Nat) (store : OfflineEventStore)
    (led : LedDriver) : Link where
  adapter := adapter
  channel := []
  eventQueue := EventQueue.create capacity
  application := Application.boot store led

inductive LinkAct (station : String) where
  /-- The backend handles an event of the station. -/
  | handleEvent (event : StationEvent) (own : event.deviceId = station)
      (receivedAtNs : Option Int)
  | setRemoteState (on : Bool)
  /-- A message on its way comes twice. -/
  | repeated (k : Nat)
  /-- The oldest message arrives. -/
  | deliver (now : UInt64)
  /-- Something else is put into the event queue. -/
  | send (event : Event) (noCommand : event.output? = none)
  /-- The central task receives an event, if there is one. -/
  | receive
  | flush
  | heartbeat (now : UInt64) (freeHeap : UInt32)

section Steps

variable (loads : Loads) (parse : CJsonParse) (p : Platform) (m : MqttManager)

def linkStep (s : Link) : LinkAct m.deviceId.text → Link
  | .handleEvent event _ receivedAtNs =>
    let (adapter, result) := s.adapter.handleEvent loads event receivedAtNs
    { s with adapter := adapter, channel := s.channel ++ result.toOption.getD [] }
  | .setRemoteState on =>
    let (adapter, result) := s.adapter.setRemoteState loads m.deviceId.text on
    { s with adapter := adapter, channel := s.channel ++ result.toOption.toList }
  | .repeated k => { s with channel := s.channel.take (k + 1) ++ s.channel.drop k }
  | .deliver now =>
    match s.channel with
    | [] => s
    | publication :: rest =>
      { s with
        channel := rest
        eventQueue := m.handleIncomingMessage parse s.eventQueue (delivered publication) now }
  | .send event _ => { s with eventQueue := (s.eventQueue.send event).1 }
  | .receive =>
    match s.eventQueue.receive with
    | (_, none) => s
    | (eventQueue, some event) =>
      { s with eventQueue := eventQueue, application := s.application.processEvent p event }
  | .flush => { s with application := s.application.flushOfflineEvents p }
  | .heartbeat now freeHeap =>
    { s with application := s.application.processEvent p (Application.heartbeat now freeHeap) }

/-- A message arrives and the event queue has no room for it. -/
def Rejects (s : Link) : LinkAct m.deviceId.text → Prop
  | .deliver _ => s.channel ≠ [] ∧ s.eventQueue.items.length = s.eventQueue.capacity
  | _ => False

/-- The outputs asked for by what is not processed yet, the oldest first. -/
def Link.unprocessed (s : Link) : List Bool :=
  s.eventQueue.items.filterMap Event.output? ++ s.channel.filterMap (asked? parse)

/-- The desired output on its way to the station. -/
def Link.relay (s : Link) : Relay Bool where
  source := (s.adapter.record m.deviceId.text).desiredOutput
  pending := s.unprocessed parse
  copy := s.application.stateManager.outputState

/-- On its way are commands of the backend for this station. -/
def Link.OnlyCommands (s : Link) : Prop :=
  ∀ publication ∈ s.channel, ∃ command on,
    publication = (commandTopicOf m.deviceId.text, dumpsCommand command on)

end Steps

/-! ## What a step does to the relay -/

theorem output?_command (command : Command) (on : Bool) (now : UInt64) :
    (commandEvent command on now).output? = some on := by
  cases command <;> cases on <;> rfl

theorem asked?_command {parse : CJsonParse} (hp : StandardParse parse) (topic : String)
    (command : Command) (on : Bool) : asked? parse (topic, dumpsCommand command on) = some on := by
  simp only [asked?, parseCommand_dumpsCommand hp, if_true, output?_command]

section Simulation

variable {loads : Loads} (hl : loads.Standard) {parse : CJsonParse} (hp : StandardParse parse)
variable (p : Platform) {m : MqttManager} (hid : isDeviceId m.deviceId.text = true)
include hl hid

/-- What the backend puts into the channel are commands. -/
theorem onlyCommands_step {s : Link} (h : s.OnlyCommands m) (act : LinkAct m.deviceId.text) :
    (linkStep loads parse p m s act).OnlyCommands m := by
  cases act with
  | handleEvent event own receivedAtNs =>
    intro publication hin
    have hresult := s.adapter.handleEvent_result hl (own ▸ hid) receivedAtNs
    simp only [linkStep, hresult, own, Except.toOption, Option.getD_some, List.mem_append,
      List.mem_map] at hin
    rcases hin with hin | ⟨c, -, rfl⟩
    · exact h publication hin
    · exact ⟨c.2, c.1, rfl⟩
  | setRemoteState on =>
    intro publication hin
    simp only [linkStep, (s.adapter.setRemoteState_valid hl hid on).2, Except.toOption,
      Option.toList_some, List.mem_append, List.mem_singleton] at hin
    rcases hin with hin | rfl
    · exact h publication hin
    · exact ⟨.setState, on, rfl⟩
  | repeated k =>
    intro publication hin
    rcases List.mem_append.mp hin with hin | hin
    · exact h publication (List.mem_of_mem_take hin)
    · exact h publication (List.mem_of_mem_drop hin)
  | deliver now =>
    intro publication hin
    refine h publication ?_
    simp only [linkStep] at hin
    split at hin
    · exact hin
    · next first rest hchannel =>
      rw [hchannel]
      exact List.mem_cons_of_mem first hin
  | send event noCommand => exact h
  | receive =>
    intro publication hin
    refine h publication ?_
    simp only [linkStep] at hin
    split at hin
    · exact hin
    · exact hin
  | flush => exact h
  | heartbeat now freeHeap => exact h

include hp

/-- An event is answered as the record says: with its new desired output, or
with nothing where that stays. -/
theorem handleEvent_simulated (s : Link) {event : StationEvent}
    (own : event.deviceId = m.deviceId.text) (receivedAtNs : Option Int) :
    Relation.ReflGen Relay.Step (s.relay parse m)
      ((linkStep loads parse p m s (.handleEvent event own receivedAtNs)).relay parse m) := by
  have hresult := s.adapter.handleEvent_result hl (own ▸ hid) receivedAtNs
  have hrecord := MockOdooAdapter.record_handleEvent loads s.adapter event receivedAtNs
  have hdesired := (s.adapter.record m.deviceId.text).handleEvent_desiredOutput event receivedAtNs
  rw [own] at hresult hrecord
  simp only [Link.relay, Link.unprocessed, linkStep, hresult, hrecord, Workstation.apply, hdesired,
    Except.toOption, Option.getD_some, List.filterMap_append]
  cases ((s.adapter.record m.deviceId.text).handleEvent event receivedAtNs).2 with
  | none => simpa using Relation.ReflGen.refl
  | some c =>
    simp only [Option.toList_some, List.map_cons, List.map_nil, List.filterMap_cons,
      asked?_command hp, List.filterMap_nil, Option.map_some, Option.getD_some, ← List.append_assoc]
    exact .single (.write (s.relay parse m) c.1)

omit hl hid in
/-- A message that comes twice is repeated in place. -/
theorem repeated_simulated {s : Link} (h : s.OnlyCommands m) (k : Nat) :
    Relation.ReflGen Relay.Step (s.relay parse m)
      ((linkStep loads parse p m s (.repeated k)).relay parse m) := by
  by_cases hk : k < s.channel.length
  · -- the k-th message, between those before and those after it
    have hsplit : s.channel = s.channel.take k ++ s.channel[k] :: s.channel.drop (k + 1) := by
      simp
    have htwice : s.channel.take (k + 1) ++ s.channel.drop k =
        s.channel.take k ++ s.channel[k] :: s.channel[k] :: s.channel.drop (k + 1) := by
      rw [List.take_succ_eq_append_getElem hk, List.drop_eq_getElem_cons hk, List.append_assoc,
        List.singleton_append]
    obtain ⟨command, on, hcommand⟩ := h s.channel[k] (List.getElem_mem hk)
    have hasked : asked? parse s.channel[k] = some on := by rw [hcommand, asked?_command hp]
    have honce : s.channel.filterMap (asked? parse) =
        (s.channel.take k).filterMap (asked? parse) ++
          on :: (s.channel.drop (k + 1)).filterMap (asked? parse) := by
      refine (congrArg (List.filterMap (asked? parse)) hsplit).trans ?_
      simp only [List.filterMap_append, List.filterMap_cons, hasked]
    simp only [Link.relay, Link.unprocessed, linkStep, htwice, List.filterMap_append,
      List.filterMap_cons, hasked, ← List.append_assoc]
    refine .single (.again (s.relay parse m) _ _ on ?_)
    rw [Link.relay, Link.unprocessed, honce, List.append_assoc]
  · have hsame : s.channel.take (k + 1) ++ s.channel.drop k = s.channel := by
      rw [List.take_of_length_le (by omega), List.drop_of_length_le (by omega), List.append_nil]
    simp only [linkStep, hsame]
    exact .refl

theorem deliver_simulated {s : Link} (h : s.OnlyCommands m) (now : UInt64)
    (hroom : ¬ Rejects m s (.deliver now)) :
    (linkStep loads parse p m s (.deliver now)).relay parse m = s.relay parse m := by
  cases hchannel : s.channel with
  | nil => simp [linkStep, hchannel]
  | cons publication rest =>
    have hroom : s.eventQueue.items.length < s.eventQueue.capacity := by
      have hbound := s.eventQueue.bounded
      simp only [Rejects, hchannel, ne_eq, reduceCtorEq, not_false_eq_true, true_and] at hroom
      omega
    obtain ⟨command, on, rfl⟩ := h publication (by rw [hchannel]; exact List.mem_cons_self)
    have hadded := enqueued_delivered hl hp m hid (makeCommand_valid hl hid on command) hroom now
    rw [if_pos rfl] at hadded
    have hitems : (m.handleIncomingMessage parse s.eventQueue
          (delivered (commandTopicOf m.deviceId.text, dumpsCommand command on)) now).items =
        s.eventQueue.items ++ [commandEvent command on now] :=
      handleIncomingMessage_items.trans (by rw [hadded])
    simp [Link.relay, Link.unprocessed, linkStep, hchannel, hitems, output?_command,
      asked?_command hp]

/-- Every step of the link is one of the relay, or none. -/
theorem step_simulated {s : Link} (h : s.OnlyCommands m) (act : LinkAct m.deviceId.text)
    (hroom : ¬ Rejects m s act) :
    Relation.ReflGen Relay.Step (s.relay parse m)
      ((linkStep loads parse p m s act).relay parse m) := by
  cases act with
  | handleEvent event own receivedAtNs => exact handleEvent_simulated hl hp p hid s own receivedAtNs
  | setRemoteState on =>
    obtain ⟨hadapter, hresult⟩ := s.adapter.setRemoteState_valid hl hid on
    simp only [Link.relay, Link.unprocessed, linkStep, hadapter, hresult,
      MockOdooAdapter.record_store, Except.toOption, Option.toList_some, List.filterMap_append,
      List.filterMap_cons, asked?_command hp, List.filterMap_nil, ← List.append_assoc]
    exact .single (.write (s.relay parse m) on)
  | repeated k => exact repeated_simulated hp p h k
  | deliver now => rw [deliver_simulated hl hp p hid h now hroom]
  | send event noCommand =>
    have hitems : (s.eventQueue.send event).1.items.filterMap Event.output? =
        s.eventQueue.items.filterMap Event.output? := by
      rw [EventQueue.send_items, List.filterMap_append]
      split <;> simp [noCommand]
    simp only [Link.relay, Link.unprocessed, linkStep, hitems]
    exact .refl
  | receive =>
    cases hitems : s.eventQueue.items with
    | nil =>
      simp only [linkStep, EventQueue.receive_nil hitems]
      exact .refl
    | cons event rest =>
      obtain ⟨hevent, hrest, -⟩ := EventQueue.receive_cons hitems
      have houtput := StateManager.writes_outputState s.application.stateManager event
      have hreceive : s.eventQueue.receive = (s.eventQueue.receive.1, some event) :=
        Prod.ext rfl hevent
      simp only [linkStep]
      rw [hreceive]
      simp only [Link.relay, Link.unprocessed, s.application.processEvent_stateManager, houtput,
        hitems, hrest, List.filterMap_cons]
      cases event.output? with
      | none => exact .refl
      | some on => exact .single (.take _ on _ rfl)
  | flush =>
    have hstate : (s.application.flushOfflineEvents p).stateManager = s.application.stateManager :=
      congrArg Application.LocalPart.stateManager (s.application.flushOfflineEvents_localPart p)
    simp only [Link.relay, Link.unprocessed, linkStep, hstate]
    exact .refl
  | heartbeat now freeHeap =>
    simp only [Link.relay, Link.unprocessed, linkStep, s.application.processEvent_stateManager]
    exact .refl

end Simulation

/-! ## The LED -/

/-- The LED and its pin show the output, whichever level is active. -/
structure Outputs.Shown (activeHigh : Bool) (s : Outputs) : Prop where
  polarity : s.2.activeHigh = activeHigh
  state : s.2.state = s.1
  level : s.2.level = if s.1 = activeHigh then 1 else 0

theorem Outputs.Shown.set {activeHigh : Bool} {s : Outputs} (h : s.Shown activeHigh)
    (on? : Option Bool) : (s.set on?).Shown activeHigh := by
  cases on? with
  | none => exact h
  | some on =>
    refine ⟨h.polarity, rfl, ?_⟩
    simp only [Outputs.set, Option.elim_some, LedDriver.set, LedDriver.writeState, h.polarity]
    cases on <;> cases activeHigh <;> rfl

theorem shown_boot (store : OfflineEventStore) (led : LedDriver) :
    (outputsOf (Application.boot store led)).Shown led.activeHigh := by
  refine ⟨rfl, rfl, ?_⟩
  simp only [outputsOf, Application.boot, LedDriver.init, LedDriver.writeState]
  cases led.activeHigh <;> rfl

/-- Whatever event is processed, and whatever is flushed, the LED shows the
output. -/
theorem shown_call (p : Platform) {activeHigh : Bool} {a : Application}
    (h : (outputsOf a).Shown activeHigh) (c : Application.Call) :
    (outputsOf (a.call p c)).Shown activeHigh := by
  cases c with
  | processEvent event =>
    rw [Application.call, outputsOf_processEvent]
    exact h.set event.output?
  | flushOfflineEvents =>
    have houtputs : outputsOf (a.flushOfflineEvents p) = outputsOf a :=
      congrArg (fun l : Application.LocalPart => (l.stateManager.outputState, l.statusLed))
        (a.flushOfflineEvents_localPart p)
    rw [Application.call, houtputs]
    exact h

theorem shown_step (loads : Loads) (parse : CJsonParse) (p : Platform) (m : MqttManager)
    {activeHigh : Bool} {s : Link} (h : (outputsOf s.application).Shown activeHigh)
    (act : LinkAct m.deviceId.text) :
    (outputsOf (linkStep loads parse p m s act).application).Shown activeHigh := by
  cases act with
  | handleEvent event own receivedAtNs => exact h
  | setRemoteState on => exact h
  | repeated k => exact h
  | deliver now =>
    simp only [linkStep]
    split <;> exact h
  | send event noCommand => exact h
  | receive =>
    simp only [linkStep]
    split
    · exact h
    · next event _ => exact shown_call p h (.processEvent event)
  | flush => exact shown_call p h .flushOfflineEvents
  | heartbeat now freeHeap => exact shown_call p h (.processEvent _)

/-! ## The result -/

/-- From a fresh link on, while the event queue rejects no command, the newest
command not yet processed, or the output if there is none, is what the ERP
wants after every step. The LED and the level of its pin agree with the output
after every step of any run of the link, and after any calls at all. -/
theorem outputs_agree (loads : Loads) (hl : loads.Standard) (parse : CJsonParse)
    (hp : StandardParse parse) (p : Platform) (m : MqttManager)
    (hid : isDeviceId m.deviceId.text = true) (adapter : MockOdooAdapter)
    (hoff : (adapter.record m.deviceId.text).desiredOutput = false) (capacity : Nat)
    (store : OfflineEventStore) (led : LedDriver) (acts : List (LinkAct m.deviceId.text)) :
    (NeverBad (linkStep loads parse p m) (Rejects m) (Link.start adapter capacity store led) acts →
      Throughout (linkStep loads parse p m)
        (fun s => (s.unprocessed parse).getLast?.getD s.application.stateManager.outputState =
          (s.adapter.record m.deviceId.text).desiredOutput)
        (Link.start adapter capacity store led) acts) ∧
    Throughout (linkStep loads parse p m)
      (fun s => (outputsOf s.application).Shown led.activeHigh)
      (Link.start adapter capacity store led) acts ∧
    ∀ calls, Throughout (Application.call p) (fun a => (outputsOf a).Shown led.activeHigh)
      (Application.boot store led) calls := by
  refine ⟨fun hnever => ?_, ?_, ?_⟩
  · have honly : (Link.start adapter capacity store led).OnlyCommands m := by
      intro publication hin
      cases hin
    have hstart : ((Link.start adapter capacity store led).relay parse m).Agrees := hoff.symm
    have honlyStep : ∀ s act, Link.OnlyCommands m s → ¬ Rejects m s act →
        Link.OnlyCommands m (linkStep loads parse p m s act) :=
      fun s act h _ => onlyCommands_step hl p hid h act
    exact Relay.agrees_throughout honlyStep
      (fun s act h hroom => step_simulated hl hp p hid h act hroom) honly hstart hnever
  · exact throughout_of_step (fun s act h => shown_step loads parse p m h act)
      (shown_boot store led) acts
  · exact throughout_of_step (fun a c h => shown_call p h c) (shown_boot store led)

/-- The switch is turned on, and while that is on its way the ERP turns the
output off; the second command comes twice. -/
def turnedOff : List (LinkAct station01.deviceId.text) :=
  [.handleEvent
      { deviceId := "station_01", sequenceId := 0, eventType := .toggleChanged, sourceId := 2,
        value := 1, timestampMs := 7, firmwareVersion := "1" } rfl (some 5),
   .deliver 8, .setRemoteState false, .repeated 0, .receive, .deliver 9, .deliver 9, .receive,
   .receive]

/-- In the end nothing is on its way and the output is off, as it is wanted. -/
theorem outputs_agree_turnedOff :
    let s := turnedOff.foldl
      (linkStep Loads.reference referenceParse Platform.offline station01)
      (Link.start {} 4 (OfflineEventStore.create 1) {})
    s.application.stateManager.outputState = (s.adapter.record "station_01").desiredOutput := by
  intro s
  obtain ⟨hagree, -, -⟩ := outputs_agree Loads.reference Loads.reference_standard referenceParse
    referenceParse_standard Platform.offline station01 (by decide) {} rfl 4
    (OfflineEventStore.create 1) {} turnedOff
  have hnever : NeverBad (linkStep Loads.reference referenceParse Platform.offline station01)
      (Rejects station01) (Link.start {} 4 (OfflineEventStore.create 1) {}) turnedOff := by
    have hroom : ∀ {s : Link} {now : UInt64}, s.eventQueue.items.length ≠ s.eventQueue.capacity →
        ¬ Rejects station01 s (.deliver now) := fun h hfull => h hfull.2
    simp only [turnedOff, neverBad_cons]
    exact ⟨id, hroom (by decide +kernel), id, id, id, hroom (by decide +kernel),
      hroom (by decide +kernel), id, id, neverBad_nil⟩
  have hdone : s.unprocessed referenceParse = [] := by decide +kernel
  have hnewest := hagree hnever turnedOff [] (List.append_nil _).symm
  rw [show turnedOff.foldl _ _ = s from rfl, hdone] at hnewest
  exact hnewest

end KaizenStation.EndToEnd
