/-
KaizenStation.EndToEnd.ClosedLoop — from the switch to the record and back to
the LED.

A plant is a fleet and the commands on their way to its stations. What the
backend publishes is on its way to the station it is made for, where it
arrives, possibly several times, and goes through the same event queue as the
reports of the drivers.

For one station, `Plant.relay` is the desired output on its way to the LED. An
act either leaves the newest value on its way and the desired output, or
publishes a command that carries the new desired output
(`Plant.step_turn`); commands that are lost, rejected or refused are the
exceptions. A station that has started reports its switch, and the backend
answers the report: from then on the LED shows what the ERP wants
(`led_follows_switch`), and after a loss it does again from the next command
on, and not before (`led_recovers_iff`).
-/
import KaizenStation.EndToEnd.Fleet
import KaizenStation.EndToEnd.OutputAgreement

namespace KaizenStation.EndToEnd

open KaizenStation.Foundation KaizenStation.Firmware KaizenStation.Backend

/-! ## The plant -/

structure Plant (ι : Type) where
  fleet : Fleet ι
  /-- The commands on their way to each station, the oldest first. -/
  commands : ι → List Publication

inductive PlantAct (ι : Type) where
  /-- An act of the fleet; what the backend publishes is on its way. -/
  | fleet (act : FleetAct ι)
  /-- The output of a station is changed in the ERP. -/
  | setRemoteState (i : ι) (on : Bool)
  /-- The oldest command arrives at its station, and is perhaps sent again. -/
  | command (i : ι) (again : Bool)
  /-- A command on its way is lost. -/
  | lose (i : ι) (k : Nat)

/-- The MQTT side of a station. -/
def manager (config : DeviceConfig) : MqttManager where
  deviceId := config.deviceId

/-- What the middleware published between two of its states, with the
answers. -/
def newPublished (before after : Middleware) : List (Publication × Bool) :=
  after.published.drop before.published.length

/-- The publications for a station among these, with this answer. -/
def addressed (config : DeviceConfig) (answer : Bool) (made : List (Publication × Bool)) :
    List Publication :=
  (made.filter fun x => x.2 == answer && decide (x.1.1 = (manager config).commandTopic)).map (·.1)

section Steps

variable {ι : Type} [DecidableEq ι] (cjson : CJson) (config : ι → DeviceConfig) (loads : Loads)
  (parse : CJsonParse) (answers : Nat → Bool)

namespace Plant

/-- The plant when every station has just started. -/
def start (env : ι → Nat → Answer) (r : ι → Station.Readings) (middleware : Middleware) :
    Plant ι where
  fleet := Fleet.start env r middleware
  commands := fun _ => []

def step (plant : Plant ι) : PlantAct ι → Plant ι
  | .fleet act =>
    let fleet := plant.fleet.step cjson config loads answers act
    { fleet := fleet
      commands := fun i => plant.commands i ++
        addressed (config i) true (newPublished plant.fleet.middleware fleet.middleware) }
  | .setRemoteState i on =>
    let (adapter, result) :=
      plant.fleet.middleware.adapter.setRemoteState loads (config i).deviceId.text on
    { fleet := { plant.fleet with middleware := { plant.fleet.middleware with adapter := adapter } }
      commands := Function.update plant.commands i
        (plant.commands i ++ result.toOption.toList) }
  | .command i again =>
    match plant.commands i with
    | [] => plant
    | publication :: rest =>
      let s := plant.fleet.stations i
      let eventQueue := (manager (config i)).handleIncomingMessage parse s.eventQueue
        (delivered publication) s.nowMs
      { fleet := { plant.fleet with
          stations := Function.update plant.fleet.stations i { s with eventQueue := eventQueue } }
        commands := if again then plant.commands else Function.update plant.commands i rest }
  | .lose i k =>
    { plant with commands := Function.update plant.commands i ((plant.commands i).eraseIdx k) }

def run (plant : Plant ι) (acts : List (PlantAct ι)) : Plant ι :=
  acts.foldl (step cjson config loads parse answers) plant

/-- The station starts anew, or a command for it is lost, finds no room in its
event queue, or is refused by the client of the backend. -/
def Disturbs (i : ι) (plant : Plant ι) : PlantAct ι → Prop
  | .fleet act => (∃ r env kept, act = .restart i r env kept) ∨
      addressed (config i) false (newPublished plant.fleet.middleware
        (plant.fleet.step cjson config loads answers act).middleware) ≠ []
  | .setRemoteState _ _ => False
  | .command j _ => j = i ∧ plant.commands i ≠ [] ∧
      (plant.fleet.stations i).eventQueue.items.length =
        (plant.fleet.stations i).eventQueue.capacity
  | .lose j _ => j = i

/-- A command for the station is published. -/
def Publishes (i : ι) (plant : Plant ι) : PlantAct ι → Prop
  | .fleet act => addressed (config i) true (newPublished plant.fleet.middleware
      (plant.fleet.step cjson config loads answers act).middleware) ≠ []
  | .setRemoteState j _ => j = i
  | _ => False

end Plant

/-- As in a fleet; commands come from the backend only. -/
def PlantAct.Admissible : PlantAct ι → Prop
  | .fleet (.task i (.post event)) =>
    (FleetAct.task i (.post event)).Admissible config loads ∧ event.output? = none
  | .fleet act => act.Admissible config loads
  | _ => True

omit [DecidableEq ι] in
theorem PlantAct.Admissible.fleet {act : FleetAct ι}
    (h : (PlantAct.fleet act).Admissible config loads) : act.Admissible config loads := by
  cases act with
  | task j act =>
    cases act with
    | post event => exact h.1
    | _ => exact h
  | _ => exact h

end Steps

/-! ## What the backend answers -/

section Backend

variable {loads : Loads} (hl : loads.Standard) (answers : Nat → Bool)

include hl

/-- A callback makes the middleware publish the command that the record
returns for its event, if there is one. -/
theorem onMessage_published (m : Middleware) (callback : Callback) :
    (m.onMessage loads answers callback).published = m.published ++
      match callback.event? loads with
      | none => []
      | some x => ((m.adapter.record x.1.deviceId).handleEvent x.1 x.2).2.toList.map fun c =>
          ((commandTopicOf x.1.deviceId, dumpsCommand c.2 c.1), answers m.published.length) := by
  unfold Middleware.onMessage Callback.event?
  cases callback.retain with
  | true => simp
  | false =>
    have hmessage : callback.message.topic = callback.topic ∧
        callback.message.payload = callback.payload ∧
        callback.message.receivedAtNs.getD callback.message.timeNs = callback.timeNs :=
      ⟨rfl, rfl, rfl⟩
    simp only [Bool.false_eq_true, if_false, Middleware.handleMessage, hmessage]
    cases hparse : parseEvent loads callback.topic callback.payload with
    | error e => simp [Except.toOption]
    | ok event =>
      obtain ⟨-, -, -, -, -, hw, -⟩ := parseEvent_ok.mp hparse
      have hresult := m.adapter.handleEvent_result hl hw.device (some callback.timeNs)
      simp only [hresult, Except.toOption, Option.map_some]
      cases ((m.adapter.record event.deviceId).handleEvent event (some callback.timeNs)).2 with
      | none => simp [Middleware.publishAll]
      | some c => cases hanswer : answers m.published.length <;>
          simp [Middleware.publishAll, hanswer]

/-- What is published for the station of a callback. -/
theorem addressed_own (m : Middleware) {callback : Callback} {x : StationEvent × Option Int}
    (hx : callback.event? loads = some x) {config : DeviceConfig}
    (hid : x.1.deviceId = config.deviceId.text) (answer : Bool) :
    addressed config answer (newPublished m (m.onMessage loads answers callback)) =
      if answers m.published.length = answer then
        ((m.adapter.record config.deviceId.text).handleEvent x.1 x.2).2.toList.map fun c =>
          (commandTopicOf config.deviceId.text, dumpsCommand c.2 c.1)
      else [] := by
  have htopic : (manager config).commandTopic = commandTopicOf config.deviceId.text := rfl
  rw [newPublished, onMessage_published hl, hx, List.drop_left, addressed, htopic]
  simp only [hid]
  cases ((m.adapter.record config.deviceId.text).handleEvent x.1 x.2).2 with
  | none => simp
  | some c =>
    by_cases hanswer : answers m.published.length = answer <;> simp [hanswer]

/-- Nothing is published for another station. -/
theorem addressed_other (m : Middleware) {callback : Callback} {config : DeviceConfig}
    (h : callback.accepted loads config.deviceId.text = false) (answer : Bool) :
    addressed config answer (newPublished m (m.onMessage loads answers callback)) = [] := by
  rw [newPublished, onMessage_published hl, List.drop_left]
  cases hx : callback.event? loads with
  | none => rfl
  | some x =>
    have hne : x.1.deviceId ≠ config.deviceId.text := by
      intro hid
      have hstation : callback.station? loads = some config.deviceId.text := by
        rw [Callback.station?, hx, Option.map_some, hid]
      rw [(Callback.accepted_iff _ callback).mpr hstation] at h
      cases h
    have htopic : commandTopicOf x.1.deviceId ≠ (manager config).commandTopic := fun h =>
      hne (commandTopicOf_inj h)
    simp only [addressed, List.map_eq_nil_iff, List.filter_eq_nil_iff, List.mem_map]
    rintro _ ⟨c, -, rfl⟩
    simp [htopic]

end Backend

theorem record_store_other (adapter : MockOdooAdapter) {station other : String}
    (h : station ≠ other) (state : Workstation) :
    (adapter.store other state).record station = adapter.record station := by
  simp [MockOdooAdapter.record, MockOdooAdapter.store, h]

/-! ## The output of a station -/

/-- What is queued on the station, then what is on its way to it. -/
def outputRelay (desired : Bool) (s : Station) (coming : List Bool) : Relay Bool where
  source := desired
  pending := s.eventQueue.items.filterMap Event.output? ++ coming
  copy := s.application.stateManager.outputState

section Station

variable {p : Platform} {s s' : Station} {desired : Bool} {coming : List Bool}

theorem outputRelay_same (hitems : s'.eventQueue.items.filterMap Event.output? =
      s.eventQueue.items.filterMap Event.output?)
    (hcopy : s'.application.stateManager.outputState = s.application.stateManager.outputState) :
    Relay.Carries (outputRelay desired s coming) (outputRelay desired s' coming) := by
  rw [outputRelay, outputRelay, hitems, hcopy]
  exact .refl _

theorem outputRelay_append {event : Event} (hnone : event.output? = none)
    (hitems : s'.eventQueue.items = s.eventQueue.items ++ [event])
    (ha : s'.application = s.application) :
    Relay.Carries (outputRelay desired s coming) (outputRelay desired s' coming) := by
  refine outputRelay_same ?_ (by rw [ha])
  simp [hitems, List.filterMap_append, hnone]

theorem Reported.output? {event : Event} (h : event.Reported) : event.output? = none := by
  unfold Event.Reported at h
  cases ht : event.type <;> simp_all [Event.output?]

/-- The central task takes the oldest output, or leaves them all. -/
theorem central_carries (p : Platform) (s : Station) (freeHeap : UInt32) :
    Relay.Carries (outputRelay desired s coming)
      (outputRelay desired (s.central p freeHeap) coming) := by
  unfold Station.central
  split
  · cases hitems : s.eventQueue.items with
    | nil => refine outputRelay_same ?_ ?_ <;> simp [Station.receive, EventQueue.receive_nil hitems]
    | cons event rest =>
      obtain ⟨hevent, hrest, -⟩ := EventQueue.receive_cons hitems
      have hcopy : (s.receive p).application.stateManager.outputState =
          event.output?.getD s.application.stateManager.outputState := by
        simp only [Station.receive, hevent]
        rw [s.application.processEvent_stateManager, StateManager.writes_outputState]
      have hqueue : (s.receive p).eventQueue.items = rest := hrest
      rw [outputRelay, outputRelay, hcopy, hqueue, hitems, List.filterMap_cons]
      cases event.output? with
      | none => exact .refl _
      | some on => exact Relay.carries_take desired on _ _
  · refine outputRelay_same rfl ?_
    exact congrArg (fun l : Application.LocalPart => l.stateManager.outputState)
      (s.application.flushIfPending_localPart p)
  · unfold Station.heartbeat
    split
    · refine outputRelay_same rfl ?_
      simp only [s.application.processEvent_stateManager]
      exact StateManager.writes_outputState _ _
    · exact outputRelay_same rfl rfl

/-- An act of a task that posts no command. -/
theorem task_carries (h : s.Healthy p) {act : Act}
    (hpost : ∀ event, act = .post event → event.output? = none) :
    Relay.Carries (outputRelay desired s coming) (outputRelay desired (s.step p act) coming) := by
  by_cases hpoll : act.source = 0
  · cases act with
    | wait => exact outputRelay_same rfl rfl
    | central freeHeap => exact central_carries p s freeHeap
    | post event =>
      rcases s.eventQueue.send_cases event with ⟨-, -, hitems⟩ | ⟨-, -, hsame⟩
      · exact outputRelay_append (hpost event rfl) hitems rfl
      · exact outputRelay_same (by rw [Station.step, hsame]) rfl
    | _ => cases hpoll
  · obtain ⟨ha, hq | ⟨event, hrep, -, hq⟩⟩ := h.tracks.polled hpoll
    · exact outputRelay_same (by rw [hq]) (by rw [ha])
    · exact outputRelay_append (Reported.output? hrep) hq ha

end Station

/-! ## One act of the plant -/

/-- A command that arrives is queued if there is room. -/
theorem handleIncomingMessage_command {parse : CJsonParse} (hp : StandardParse parse)
    (config : DeviceConfig) (eventQueue : EventQueue) (command : Command) (on : Bool)
    (now : UInt64) :
    (manager config).handleIncomingMessage parse eventQueue
        (delivered (commandTopicOf config.deviceId.text, dumpsCommand command on)) now =
      (eventQueue.send (commandEvent command on now)).1 := by
  have ha := dumpsCommand_admissible command on
  have hpass : Passes (manager config)
      (delivered (commandTopicOf config.deviceId.text, dumpsCommand command on))
      (dumpsCommand command on).toUTF8 := ⟨rfl, ⟨ha.1, ha.2.1⟩, rfl, rfl, rfl, rfl⟩
  rw [handleIncomingMessage_passes hpass, parseCommand_dumpsCommand hp, if_pos rfl]

namespace Plant

section Runs

variable {ι : Type} [DecidableEq ι] {cjson : CJson} {config : ι → DeviceConfig}
  (hcfg : ∀ i, ValidConfig (config i))
  (hdistinct : ∀ i j, i ≠ j → (config i).deviceId.text ≠ (config j).deviceId.text)
  {loads : Loads} (hl : loads.Standard) {parse : CJsonParse} (hp : StandardParse parse)
  {answers : Nat → Bool} {plant plant' : Plant ι} {i : ι}

variable (config parse) in
/-- The desired output on its way to the LED of a station. -/
def relay (plant : Plant ι) (i : ι) : Relay Bool :=
  outputRelay (plant.fleet.middleware.adapter.record (config i).deviceId.text).desiredOutput
    (plant.fleet.stations i) ((plant.commands i).filterMap (asked? parse))

variable (config) in
/-- On their way to a station are commands for it. -/
def OnlyCommands (plant : Plant ι) (i : ι) : Prop :=
  ∀ publication ∈ plant.commands i, ∃ command on,
    publication = (commandTopicOf (config i).deviceId.text, dumpsCommand command on)

variable (config) in
/-- What the backend published for a station from one plant to the next, with
this answer. -/
def made (plant plant' : Plant ι) (i : ι) (answer : Bool) : List Publication :=
  addressed (config i) answer (newPublished plant.fleet.middleware plant'.fleet.middleware)

variable (config parse) in
/-- The desired output is written where a command is published, and what is on
its way is carried otherwise. -/
structure Relayed (plant plant' : Plant ι) (i : ι) : Prop where
  carries : made config plant plant' i true = [] →
    Relay.Carries (plant.relay config parse i) (plant'.relay config parse i)
  agrees : made config plant plant' i true ≠ [] → (plant'.relay config parse i).Agrees

omit [DecidableEq ι] in
include hl hp in
theorem onMessage_relay {callback : Callback}
    (hstation : plant'.fleet.stations i = plant.fleet.stations i)
    (hmiddleware : plant'.fleet.middleware =
      plant.fleet.middleware.onMessage loads answers callback)
    (hcommands : plant'.commands i = plant.commands i ++ made config plant plant' i true)
    (haccepted : made config plant plant' i false = []) :
    Relayed config parse plant plant' i := by
  have hmade : ∀ answer, made config plant plant' i answer = addressed (config i) answer
      (newPublished plant.fleet.middleware
        (plant.fleet.middleware.onMessage loads answers callback)) := fun answer => by
    rw [made, hmiddleware]
  have hsame : plant'.commands i = plant.commands i →
      plant'.fleet.middleware.adapter.record (config i).deviceId.text =
        plant.fleet.middleware.adapter.record (config i).deviceId.text →
      Relay.Carries (plant.relay config parse i) (plant'.relay config parse i) := by
    intro hcommands hrecord
    rw [relay, relay, hcommands, hrecord, hstation]
    exact .refl _
  cases hown : callback.accepted loads (config i).deviceId.text with
  | false =>
    have hnothing := (hmade true).trans (addressed_other hl answers _ hown true)
    rw [hnothing, List.append_nil] at hcommands
    have hrecord := onMessage_other answers plant.fleet.middleware hown
    rw [← hmiddleware] at hrecord
    exact ⟨fun _ => hsame hcommands hrecord, fun h => absurd hnothing h⟩
  | true =>
    have hstation? := (Callback.accepted_iff _ callback).mp hown
    obtain ⟨x, hx, hid⟩ := Option.map_eq_some_iff.mp hstation?
    have hrecord : plant'.fleet.middleware.adapter.record (config i).deviceId.text =
        (plant.fleet.middleware.adapter.record (config i).deviceId.text).apply x := by
      rw [hmiddleware, Middleware.onMessage_adapter, hx, ← hid]
      exact MockOdooAdapter.record_handleEvent loads _ x.1 x.2
    have hdesired := Workstation.handleEvent_desiredOutput
      (plant.fleet.middleware.adapter.record (config i).deviceId.text) x.1 x.2
    simp only [addressed_own hl answers _ hx hid] at hmade
    rw [hmade] at hcommands haccepted
    cases hc : ((plant.fleet.middleware.adapter.record (config i).deviceId.text).handleEvent
        x.1 x.2).2 with
    | none =>
      have hquiet : plant'.commands i = plant.commands i := by simpa [hc] using hcommands
      refine ⟨fun _ => ?_, fun h => absurd (by simp [hmade, hc]) h⟩
      rw [relay, relay, hrecord, Workstation.apply, hdesired, hc, hstation, hquiet]
      exact .refl _
    | some c =>
      cases hanswer : answers plant.fleet.middleware.published.length with
      | false => simp [hc, hanswer] at haccepted
      | true =>
        have hsent : plant'.commands i = plant.commands i ++
            [(commandTopicOf (config i).deviceId.text, dumpsCommand c.2 c.1)] := by
          simpa [hc, hanswer] using hcommands
        refine ⟨fun h => by simp [hmade, hc, hanswer] at h, fun _ => ?_⟩
        rw [relay, hrecord, Workstation.apply, hdesired, hc, hsent, outputRelay,
          List.filterMap_append, ← List.append_assoc]
        simp only [List.filterMap_cons, asked?_command hp, List.filterMap_nil, Option.map_some,
          Option.getD_some]
        exact Relay.agrees_write c.1 _ _

omit [DecidableEq ι] in
/-- What happens elsewhere, or only to the station. -/
theorem relay_carries (hstation : ∀ desired coming,
      Relay.Carries (outputRelay desired (plant.fleet.stations i) coming)
        (outputRelay desired (plant'.fleet.stations i) coming))
    (hrecord : (plant'.fleet.middleware.adapter.record (config i).deviceId.text).desiredOutput =
      (plant.fleet.middleware.adapter.record (config i).deviceId.text).desiredOutput)
    (hcommands : plant'.commands i = plant.commands i) :
    Relay.Carries (plant.relay config parse i) (plant'.relay config parse i) := by
  rw [relay, relay, hrecord, hcommands]
  exact hstation _ _

include hl hp in
/-- An act of the fleet, while the station keeps running. -/
theorem fleet_relay (hs : plant.fleet.Sane cjson config i) {act : FleetAct ι}
    (hact : (PlantAct.fleet act).Admissible config loads)
    (hrunning : ∀ r env kept, act ≠ .restart i r env kept)
    (hfleet : plant'.fleet = plant.fleet.step cjson config loads answers act)
    (hcommands : plant'.commands i = plant.commands i ++ made config plant plant' i true)
    (haccepted : made config plant plant' i false = []) :
    Relayed config parse plant plant' i := by
  -- an act that hands the middleware nothing
  have hquiet : plant'.fleet.middleware = plant.fleet.middleware →
      (∀ desired coming, Relay.Carries (outputRelay desired (plant.fleet.stations i) coming)
        (outputRelay desired (plant'.fleet.stations i) coming)) →
      Relayed config parse plant plant' i := by
    intro hmiddleware hstation
    have hnothing : made config plant plant' i true = [] := by
      rw [made, hmiddleware, newPublished, List.drop_length]
      rfl
    rw [hnothing, List.append_nil] at hcommands
    exact ⟨fun _ => relay_carries hstation (by rw [hmiddleware]) hcommands,
      fun h => absurd hnothing h⟩
  cases act with
  | task j act =>
    refine hquiet (by rw [hfleet]; rfl) fun desired coming => ?_
    by_cases hij : i = j
    · subst hij
      have hpost : ∀ event, act = .post event → event.output? = none := by
        rintro event rfl
        exact hact.2
      simpa only [hfleet, Fleet.step, Function.update_self] using task_carries hs.healthy hpost
    · simp only [hfleet, Fleet.step, Function.update_of_ne hij]
      exact .refl _
  | restart j r env kept =>
    have hij : i ≠ j := by
      rintro rfl
      exact hrunning r env kept rfl
    refine hquiet (by rw [hfleet]; rfl) fun desired coming => ?_
    simp only [hfleet, Fleet.step, Function.update_of_ne hij]
    exact .refl _
  | deliver j timeNs again =>
    cases hchannel : plant.fleet.channels j with
    | nil =>
      have hsame : plant'.fleet = plant.fleet := by simp only [hfleet, Fleet.step, hchannel]
      exact hquiet (by rw [hsame]) fun _ _ => by rw [hsame]; exact .refl _
    | cons text rest =>
      have hmiddleware : plant'.fleet.middleware =
          plant.fleet.middleware.onMessage loads answers (arrival (config j) text timeNs) := by
        simp only [hfleet, Fleet.step, hchannel]
      have hstation : plant'.fleet.stations i = plant.fleet.stations i := by
        simp only [hfleet, Fleet.step, hchannel]
      exact onMessage_relay hl hp hstation hmiddleware hcommands haccepted
  | other callback =>
    exact onMessage_relay hl hp (by rw [hfleet]; rfl) (by rw [hfleet]; rfl) hcommands haccepted

include hp in
/-- A command that arrives and finds room goes from its way to the queue, or is
there twice. -/
theorem command_relay (ho : plant.OnlyCommands config i) {again : Bool}
    (hroom : plant.commands i ≠ [] → (plant.fleet.stations i).eventQueue.items.length <
      (plant.fleet.stations i).eventQueue.capacity) :
    Relay.Carries (plant.relay config parse i)
      ((plant.step cjson config loads parse answers (.command i again)).relay config parse i) := by
  cases hcommands : plant.commands i with
  | nil =>
    simp only [step, hcommands]
    exact .refl _
  | cons publication rest =>
    obtain ⟨command, on, rfl⟩ := ho publication (hcommands ▸ List.mem_cons_self)
    have hitems : ∀ now, ((plant.fleet.stations i).eventQueue.send
        (commandEvent command on now)).1.items =
          (plant.fleet.stations i).eventQueue.items ++ [commandEvent command on now] := fun _ =>
      (EventQueue.send_accepted (hroom (by simp [hcommands]))).2
    simp only [step, hcommands, relay, outputRelay, Function.update_self,
      handleIncomingMessage_command hp, hitems, List.filterMap_append, List.filterMap_cons,
      List.filterMap_nil, output?_command, asked?_command hp, List.append_assoc]
    cases again with
    | false => simpa using Relay.Carries.refl _
    | true => simpa [hcommands, asked?_command hp] using Relay.carries_again _ _ _ on _

include hcfg hdistinct hl hp

/-- An act that does not disturb the station writes its desired output or
carries what is on its way. -/
theorem step_relay (hs : plant.fleet.Sane cjson config i) (ho : plant.OnlyCommands config i)
    {act : PlantAct ι} (hact : act.Admissible config loads)
    (hok : ¬ Disturbs cjson config loads answers i plant act) :
    (¬ Publishes cjson config loads answers i plant act →
      Relay.Carries (plant.relay config parse i)
        ((plant.step cjson config loads parse answers act).relay config parse i)) ∧
    (Publishes cjson config loads answers i plant act →
      ((plant.step cjson config loads parse answers act).relay config parse i).Agrees) := by
  cases act with
  | fleet act =>
    simp only [Disturbs, not_or, not_exists, ne_eq, not_not] at hok
    have hrelayed : Relayed config parse plant
        (plant.step cjson config loads parse answers (.fleet act)) i :=
      fleet_relay hl hp hs hact hok.1 rfl rfl hok.2
    exact ⟨fun h => hrelayed.carries (not_not.mp h), hrelayed.agrees⟩
  | setRemoteState j on =>
    obtain ⟨hadapter, hresult⟩ :=
      plant.fleet.middleware.adapter.setRemoteState_valid hl (hcfg j).device on
    by_cases hij : i = j
    · subst hij
      refine ⟨fun h => absurd rfl h, fun _ => ?_⟩
      simp only [step, relay, outputRelay, hadapter, hresult, Function.update_self,
        MockOdooAdapter.record_store, Except.toOption, Option.toList_some, List.filterMap_append,
        List.filterMap_cons, asked?_command hp, List.filterMap_nil, ← List.append_assoc]
      exact Relay.agrees_write on _ _
    · refine ⟨fun _ => relay_carries (fun _ _ => .refl _) ?_ ?_, fun h => absurd h.symm hij⟩
      · simp only [step, hadapter, record_store_other _ (hdistinct i j hij)]
      · simp only [step, Function.update_of_ne hij]
  | command j again =>
    refine ⟨fun _ => ?_, fun h => h.elim⟩
    by_cases hij : i = j
    · subst hij
      refine command_relay hp ho fun hcommands => ?_
      have hbound := (plant.fleet.stations i).eventQueue.bounded
      have hfull : ¬ _ := fun hfull => hok ⟨rfl, hcommands, hfull⟩
      omega
    · cases hcommands : plant.commands j with
      | nil =>
        simp only [step, hcommands]
        exact .refl _
      | cons publication rest =>
        refine relay_carries (fun desired coming => ?_) ?_ ?_
        · simp only [step, hcommands, Function.update_of_ne hij]
          exact .refl _
        · simp only [step, hcommands]
        · cases again <;> simp only [step, hcommands, Function.update_of_ne hij, if_true,
            Bool.false_eq_true, if_false]
  | lose j k =>
    have hij : i ≠ j := fun h => hok h.symm
    refine ⟨fun _ => relay_carries (fun _ _ => .refl _) rfl ?_, fun h => h.elim⟩
    simp only [step, Function.update_of_ne hij]

end Runs

/-! ## What holds at every moment -/

section Regular

variable {ι : Type} [DecidableEq ι] {cjson : CJson} (hc : cjson.Standard)
  {config : ι → DeviceConfig} (hcfg : ∀ i, ValidConfig (config i))
  (hdistinct : ∀ i j, i ≠ j → (config i).deviceId.text ≠ (config j).deviceId.text)
  {loads : Loads} (hl : loads.Standard) {parse : CJsonParse} (hp : StandardParse parse)
  {answers : Nat → Bool} {plant plant' : Plant ι} {i : ι}

omit [DecidableEq ι] in
include hl in
/-- What is published is a command for the station. -/
theorem addressed_commands (m : Middleware) (callback : Callback) (answer : Bool) :
    ∀ publication ∈ addressed (config i) answer
        (newPublished m (m.onMessage loads answers callback)),
      ∃ command on,
        publication = (commandTopicOf (config i).deviceId.text, dumpsCommand command on) := by
  intro publication hmem
  cases hown : callback.accepted loads (config i).deviceId.text with
  | false =>
    rw [addressed_other hl answers m hown] at hmem
    cases hmem
  | true =>
    have hstation := (Callback.accepted_iff _ callback).mp hown
    obtain ⟨x, hx, hid⟩ := Option.map_eq_some_iff.mp hstation
    rw [addressed_own hl answers m hx hid] at hmem
    split at hmem
    · obtain ⟨c, -, rfl⟩ := List.mem_map.mp hmem
      exact ⟨c.2, c.1, rfl⟩
    · cases hmem

/-- The middleware handles at most one callback in an act. -/
theorem fleet_middleware (f : Fleet ι) (act : FleetAct ι) :
    (f.step cjson config loads answers act).middleware = f.middleware ∨
      ∃ callback, (f.step cjson config loads answers act).middleware =
        f.middleware.onMessage loads answers callback := by
  cases act with
  | task => exact .inl rfl
  | restart => exact .inl rfl
  | deliver j timeNs again =>
    simp only [Fleet.step]
    split
    · exact .inl rfl
    · next text rest _ => exact .inr ⟨arrival (config j) text timeNs, rfl⟩
  | other callback => exact .inr ⟨callback, rfl⟩

include hcfg hl in
theorem OnlyCommands.step (h : plant.OnlyCommands config i) (act : PlantAct ι) :
    (plant.step cjson config loads parse answers act).OnlyCommands config i := by
  intro publication hmem
  cases act with
  | fleet act =>
    rcases List.mem_append.mp hmem with hmem | hmem
    · exact h publication hmem
    · rcases fleet_middleware plant.fleet act with hsame | ⟨callback, hmiddleware⟩
      · rw [hsame, newPublished, List.drop_length] at hmem
        cases hmem
      · rw [hmiddleware] at hmem
        exact addressed_commands hl _ callback true publication hmem
  | setRemoteState j on =>
    have hresult := (plant.fleet.middleware.adapter.setRemoteState_valid hl (hcfg j).device on).2
    by_cases hij : i = j
    · subst hij
      simp only [Plant.step, Function.update_self, hresult, Except.toOption, Option.toList_some,
        List.mem_append, List.mem_singleton] at hmem
      rcases hmem with hmem | rfl
      · exact h publication hmem
      · exact ⟨.setState, on, rfl⟩
    · simp only [Plant.step, Function.update_of_ne hij] at hmem
      exact h publication hmem
  | command j again =>
    cases hcommands : plant.commands j with
    | nil =>
      simp only [Plant.step, hcommands] at hmem
      exact h publication hmem
    | cons first rest =>
      refine h publication ?_
      simp only [Plant.step, hcommands] at hmem
      cases again with
      | true => exact hmem
      | false =>
        by_cases hij : i = j
        · subst hij
          simp only [Bool.false_eq_true, if_false, Function.update_self] at hmem
          exact hcommands ▸ List.mem_cons_of_mem first hmem
        · simpa only [Bool.false_eq_true, if_false, Function.update_of_ne hij] using hmem
  | lose j k =>
    by_cases hij : i = j
    · subst hij
      simp only [Plant.step, Function.update_self] at hmem
      exact h publication (List.mem_of_mem_eraseIdx hmem)
    · simp only [Plant.step, Function.update_of_ne hij] at hmem
      exact h publication hmem

include hp in
/-- For the fleet, a command that arrives is an event that is posted. -/
theorem step_command (ho : ∀ i, plant.OnlyCommands config i) (j : ι) (again : Bool) :
    (plant.step cjson config loads parse answers (.command j again)).fleet = plant.fleet ∨
      ∃ act : FleetAct ι, act.Admissible config loads ∧
        (plant.step cjson config loads parse answers (.command j again)).fleet =
          plant.fleet.step cjson config loads answers act := by
  cases hcommands : plant.commands j with
  | nil => exact .inl (by simp only [step, hcommands])
  | cons publication rest =>
    obtain ⟨command, on, rfl⟩ := ho j publication (hcommands ▸ List.mem_cons_self)
    refine .inr ⟨.task j (.post (commandEvent command on (plant.fleet.stations j).nowMs)), ?_, ?_⟩
    · refine ⟨⟨⟨?_, rfl⟩, ?_⟩, trivial⟩ <;> cases command <;> rfl
    · have hchannels : Function.update plant.fleet.channels j (plant.fleet.channels j ++
          newPayloads (plant.fleet.stations j).application
            (plant.fleet.stations j).application) = plant.fleet.channels := by
        rw [newPayloads, List.drop_length, List.append_nil, Function.update_eq_self]
      simp only [step, hcommands, handleIncomingMessage_command hp, Fleet.step, Station.step,
        hchannels]

variable (cjson config) in
/-- What every station of a plant has at every moment, whatever is lost. -/
structure Regular (plant : Plant ι) (i : ι) : Prop where
  sane : plant.fleet.Sane cjson config i
  commands : plant.OnlyCommands config i
  truthful : Sensor.toggle.Truthful (plant.fleet.stations i)
  shown : (outputsOf (plant.fleet.stations i).application).Shown true

theorem station_shown (r : Station.Readings) :
    (outputsOf (Station.boot r).application).Shown true := shown_boot _ {}

omit [DecidableEq ι] in
theorem start_regular {env : ι → Nat → Answer} (henv : ∀ i k, (env i k).allocated = true)
    {r : ι → Station.Readings} (hr : ∀ i, (r i).Early) (middleware : Middleware) (i : ι) :
    Regular cjson config (start env r middleware) i := by
  refine ⟨Fleet.start_sane henv hr middleware i, ?_, Sensor.toggle.truthful_boot (r i),
    station_shown (r i)⟩
  intro publication hmem
  cases hmem

theorem shown_run (p : Platform) {a : Application} (h : (outputsOf a).Shown true)
    (calls : List Application.Call) : (outputsOf (a.run p calls)).Shown true := by
  induction calls generalizing a with
  | nil => exact h
  | cons c calls ih => exact ih (shown_call p h c)

omit [DecidableEq ι] in
/-- What is kept by a station is kept by one act of its fleet. -/
theorem Regular.fleet {f' : Fleet ι} (h : Regular cjson config plant i)
    (heffect : Fleet.Effect cjson config loads answers plant.fleet f' i) :
    (outputsOf (f'.stations i).application).Shown true := by
  cases heffect with
  | task act sent hquiet _ hstation =>
    obtain ⟨calls, hcalls⟩ := (h.sane.healthy.tracks.moves hquiet).2.calls
    rw [hstation, hcalls]
    exact shown_run _ h.shown calls
  | restart r kept hstation =>
    rw [hstation]
    exact station_shown r
  | deliver text rest timeNs again _ hstation =>
    rw [hstation]
    exact h.shown
  | elsewhere hstation =>
    rw [hstation]
    exact h.shown

include hcfg hdistinct hl hp in
theorem Regular.step (h : ∀ i, Regular cjson config plant i) {act : PlantAct ι}
    (hact : act.Admissible config loads) (i : ι) :
    Regular cjson config (plant.step cjson config loads parse answers act) i := by
  have hcommands : (plant.step cjson config loads parse answers act).OnlyCommands config i :=
    (h i).commands.step hcfg hl act
  have hfleet : ∀ {fleetAct : FleetAct ι}, fleetAct.Admissible config loads →
      (plant.step cjson config loads parse answers act).fleet =
        plant.fleet.step cjson config loads answers fleetAct →
      Regular cjson config (plant.step cjson config loads parse answers act) i := by
    intro fleetAct hadmissible heq
    have heffect : Fleet.Effect cjson config loads answers plant.fleet _ i :=
      Fleet.step_effect hcfg hdistinct (h i).sane hadmissible
    refine ⟨?_, hcommands, ?_, ?_⟩
    · rw [heq]
      exact Fleet.Sane.step (fun j => (h j).sane) hadmissible i
    · rw [heq]
      exact Fleet.truthful_step (h i).sane (h i).truthful hadmissible
    · rw [heq]
      exact (h i).fleet heffect
  cases act with
  | fleet act => exact hfleet hact.fleet rfl
  | setRemoteState j on =>
    exact ⟨⟨(h i).sane.healthy, (h i).sane.memory⟩, hcommands, (h i).truthful, (h i).shown⟩
  | command j again =>
    rcases step_command hp (fun k => (h k).commands) j again with hsame | ⟨act, hadmissible, heq⟩
    · refine ⟨?_, hcommands, ?_, ?_⟩ <;> rw [hsame]
      · exact (h i).sane
      · exact (h i).truthful
      · exact (h i).shown
    · exact hfleet hadmissible heq
  | lose j k =>
    exact ⟨(h i).sane, hcommands, (h i).truthful, (h i).shown⟩

include hcfg hdistinct hl hp in
theorem Regular.run (h : ∀ i, Regular cjson config plant i) {acts : List (PlantAct ι)}
    (hacts : ∀ act ∈ acts, act.Admissible config loads) :
    ∀ i, Regular cjson config (plant.run cjson config loads parse answers acts) i := by
  induction acts generalizing plant with
  | nil => exact h
  | cons act acts ih =>
    have hstep : ∀ i,
        Regular cjson config (plant.step cjson config loads parse answers act) i :=
      Regular.step hcfg hdistinct hl hp h (hacts act List.mem_cons_self)
    exact ih hstep fun act' hact' => hacts act' (List.mem_cons_of_mem _ hact')

/-! ## The answer to a report -/

/-- The output that the ERP wants, as a field that follows the switch. -/
def desiredOutput : Mirror Input.toggle Bool where
  get := Workstation.desiredOutput
  value? := StationEvent.toggle?
  convert := id
  writes := Workstation.writes_desiredOutput
  agrees := Mirror.taskDone.agrees
  initial := rfl

include hc hcfg hdistinct hl hp in
/-- A field that follows the switch, unless it is changed in the ERP. -/
theorem follows_step {mirror : Mirror Input.toggle Bool} (h : ∀ i, Regular cjson config plant i)
    (hf : Fleet.Follows cjson config mirror plant.fleet i) {act : PlantAct ι}
    (hact : act.Admissible config loads)
    (hremote : ∀ on, act = .setRemoteState i on → ∀ state : Workstation,
      mirror.get { state with desiredOutput := on } = mirror.get state) :
    Fleet.Follows cjson config mirror
      (plant.step cjson config loads parse answers act).fleet i := by
  cases act with
  | fleet act => exact hf.step hc hcfg hdistinct hl (h i).sane hact.fleet
  | setRemoteState j on =>
    refine hf.same rfl rfl ?_
    have hadapter :=
      (plant.fleet.middleware.adapter.setRemoteState_valid hl (hcfg j).device on).1
    by_cases hij : i = j
    · subst hij
      simp only [Fleet.shown, Mirror.field, step, hadapter, MockOdooAdapter.record_store]
      exact hremote on rfl _
    · simp only [Fleet.shown, Mirror.field, step, hadapter,
        record_store_other _ (hdistinct i j hij)]
  | command j again =>
    rcases step_command hp (fun k => (h k).commands) j again with hsame | ⟨act, hadmissible, heq⟩
    · rw [hsame]
      exact hf
    · rw [heq]
      exact hf.step hc hcfg hdistinct hl (h i).sane hadmissible
  | lose j k => exact hf

variable (cjson config parse) in
/-- Once MQTT has accepted a report of the switch, such a report is on its way
to the backend, or the station is told what the ERP wants. -/
def Answered (plant : Plant ι) (i : ι) : Prop :=
  ∃ events, Fleet.OnWay cjson config plant.fleet i events ∧
    ((∃ e ∈ (plant.fleet.stations i).application.accepted, e.toggle?.isSome = true) →
      (∃ e ∈ events, e.toggle?.isSome = true) ∨ (plant.relay config parse i).Agrees)

omit [DecidableEq ι] in
include hc hcfg hl in
/-- A report of the switch that arrives is answered with a command. -/
theorem toggle_published (plant : Plant ι) (i : ι) {e : Event} (he : e.Sendable)
    (htoggle : e.toggle?.isSome = true) (m : Middleware) (timeNs : Int) :
    let m' := m.onMessage loads answers
      (arrival (config i) ((plant.fleet.platform cjson config i).text e) timeNs)
    addressed (config i) true (newPublished m m') ≠ [] ∨
      addressed (config i) false (newPublished m m') ≠ [] := by
  intro m'
  have hcarried : Carried (plant.fleet.platform cjson config i)
      ((plant.fleet.platform cjson config i).text e)
      (arrival (config i) ((plant.fleet.platform cjson config i).text e) timeNs).message :=
    ⟨rfl, .inr rfl⟩
  rcases parse_produced (p := plant.fleet.platform cjson config i) hc hl (hcfg i) he.produced
    he.published he.early hcarried.payload with ⟨received, hrec, hparse⟩ | ⟨hforeign, -⟩
  · have hreceived := Mirror.taskDone.agrees (config i) e received he.produced.wired hrec
    have hx : (arrival (config i) ((plant.fleet.platform cjson config i).text e)
        timeNs).event? loads = some (received, some timeNs) := by
      have hparse' : parseEvent loads
          (arrival (config i) ((plant.fleet.platform cjson config i).text e) timeNs).topic
          (arrival (config i) ((plant.fleet.platform cjson config i).text e) timeNs).payload =
            .ok received := hparse
      simp only [Callback.event?, hparse']
      rfl
    have hid : received.deviceId = (config i).deviceId.text := stationEvent_deviceId hrec
    have hasks : (((m.adapter.record (config i).deviceId.text).handleEvent received
        (some timeNs)).2).isSome = true := by
      have hsome : received.toggle?.isSome = true := by
        have hvalue : received.toggle? = e.toggle?.map id := hreceived
        rw [hvalue, Option.isSome_map, htoggle]
      cases hk : received.eventType <;>
        simp_all [StationEvent.toggle?, Workstation.handleEvent]
    obtain ⟨c, hcommand⟩ := Option.isSome_iff_exists.mp hasks
    have hown := addressed_own hl answers m hx hid
    simp only [hcommand] at hown
    cases hanswer : answers m.published.length with
    | true => exact .inl (by simp [m', hown, hanswer])
    | false => exact .inr (by simp [m', hown, hanswer])
  · have hsource := Input.toggle.value?_foreign hforeign
    have hsource' : e.toggle? = none := hsource
    rw [hsource'] at htoggle
    cases htoggle

omit [DecidableEq ι] in
/-- A station that has just started has reported nothing. -/
theorem Answered.started {r : Station.Readings} (hstation : plant.fleet.stations i = Station.boot r)
    {events : List Event} (honway : Fleet.OnWay cjson config plant.fleet i events) :
    Answered cjson config parse plant i := by
  refine ⟨events, honway, ?_⟩
  rintro ⟨e, he, -⟩
  rw [hstation] at he
  cases he

omit [DecidableEq ι] in
theorem Answered.same (h : Answered cjson config parse plant i)
    (happlication : (plant'.fleet.stations i).application = (plant.fleet.stations i).application)
    (hchannel : plant'.fleet.channels i = plant.fleet.channels i)
    (hagrees : (plant.relay config parse i).Agrees → (plant'.relay config parse i).Agrees) :
    Answered cjson config parse plant' i := by
  obtain ⟨events, honway, hanswer⟩ := h
  refine ⟨events, honway.same hchannel, ?_⟩
  rw [happlication]
  exact fun hreported => (hanswer hreported).imp_right hagrees

omit [DecidableEq ι] in
include hc hcfg hl in
theorem Answered.fleet (h : Answered cjson config parse plant i)
    (heffect : Fleet.Effect cjson config loads answers plant.fleet plant'.fleet i)
    (haccepted : made config plant plant' i false = [])
    (hwrites : made config plant plant' i true ≠ [] → (plant'.relay config parse i).Agrees)
    (hagrees : (plant.relay config parse i).Agrees → (plant'.relay config parse i).Agrees) :
    Answered cjson config parse plant' i := by
  cases heffect with
  | task act sent _ _ _ hnew hchannel hsent _ =>
    obtain ⟨events, honway, hanswer⟩ := h
    refine ⟨events ++ sent, honway.send hchannel hsent, ?_⟩
    rw [hnew]
    rintro ⟨e, he, htoggle⟩
    rcases List.mem_append.mp he with he | he
    · refine (hanswer ⟨e, he, htoggle⟩).imp ?_ hagrees
      rintro ⟨e, he, htoggle⟩
      exact ⟨e, List.mem_append_left _ he, htoggle⟩
    · exact .inl ⟨e, List.mem_append_right _ he, htoggle⟩
  | restart r kept hstation hchannel _ =>
    obtain ⟨events, honway, -⟩ := h
    exact .started hstation (honway.take hchannel)
  | deliver text rest timeNs again hchannel hstation hchannel' hmiddleware =>
    obtain ⟨events, honway, hanswer⟩ := h
    obtain ⟨e, later, rfl, rfl, he, hlater⟩ := honway.oldest hchannel
    rw [← hstation] at hanswer
    cases again with
    | true =>
      exact ⟨e :: later, honway.same hchannel', fun hreported =>
        (hanswer hreported).imp_right hagrees⟩
    | false =>
      refine ⟨later, hlater plant'.fleet hchannel', fun hreported => ?_⟩
      rcases hanswer hreported with ⟨e', he', htoggle⟩ | hagree
      · rcases List.mem_cons.mp he' with rfl | he'
        · -- the report that arrives is the one that was waited for
          have hpublished : made config plant plant' i true ≠ [] ∨
              made config plant plant' i false ≠ [] := by
            rw [made, made, hmiddleware]
            exact toggle_published hc hcfg hl plant i he htoggle plant.fleet.middleware timeNs
          rcases hpublished with hmade | hrefused
          · exact .inr (hwrites hmade)
          · exact absurd haccepted hrefused
        · exact .inl ⟨e', he', htoggle⟩
      · exact .inr (hagrees hagree)
  | elsewhere hstation hchannel _ => exact h.same (by rw [hstation]) hchannel hagrees

include hc hcfg hdistinct hl hp in
theorem Answered.step (hr : ∀ i, Regular cjson config plant i)
    (h : Answered cjson config parse plant i) {act : PlantAct ι}
    (hact : act.Admissible config loads)
    (hok : ¬ Disturbs cjson config loads answers i plant act) :
    Answered cjson config parse (plant.step cjson config loads parse answers act) i := by
  obtain ⟨hcarries, hwrites⟩ := step_relay hcfg hdistinct hl hp (hr i).sane (hr i).commands hact hok
  have hagrees : (plant.relay config parse i).Agrees →
      ((plant.step cjson config loads parse answers act).relay config parse i).Agrees := by
    intro hagree
    by_cases hpublishes : Publishes cjson config loads answers i plant act
    · exact hwrites hpublishes
    · exact (hcarries hpublishes).agrees_iff.mpr hagree
  cases act with
  | fleet act =>
    have heffect : Fleet.Effect cjson config loads answers plant.fleet
        (plant.fleet.step cjson config loads answers act) i :=
      Fleet.step_effect hcfg hdistinct (hr i).sane hact.fleet
    simp only [Disturbs, not_or, ne_eq, not_not] at hok
    exact h.fleet hc hcfg hl heffect hok.2 hwrites hagrees
  | setRemoteState j on => exact h.same rfl rfl hagrees
  | command j again =>
    refine h.same ?_ ?_ hagrees
    · simp only [Plant.step]
      split
      · rfl
      · by_cases hij : i = j
        · subst hij
          simp only [Function.update_self]
        · simp only [Function.update_of_ne hij]
    · simp only [Plant.step]
      split <;> rfl
  | lose j k => exact h.same rfl rfl hagrees

/-! ## Runs -/

include hc hcfg hdistinct hl hp

theorem Answered.run (hr : ∀ i, Regular cjson config plant i)
    (h : Answered cjson config parse plant i) {acts : List (PlantAct ι)}
    (hacts : ∀ act ∈ acts, act.Admissible config loads)
    (hok : NeverBad (Plant.step cjson config loads parse answers)
      (Disturbs cjson config loads answers i) plant acts) :
    Answered cjson config parse (plant.run cjson config loads parse answers acts) i := by
  induction acts generalizing plant with
  | nil => exact h
  | cons act acts ih =>
    have hact := hacts act List.mem_cons_self
    obtain ⟨hfirst, hrest⟩ := neverBad_cons.mp hok
    exact ih (Regular.step hcfg hdistinct hl hp hr hact)
      (h.step hc hcfg hdistinct hl hp hr hact hfirst)
      (fun act' hact' => hacts act' (List.mem_cons_of_mem _ hact')) hrest

theorem follows_run {mirror : Mirror Input.toggle Bool} (h : ∀ i, Regular cjson config plant i)
    (hf : Fleet.Follows cjson config mirror plant.fleet i) {acts : List (PlantAct ι)}
    (hacts : ∀ act ∈ acts, act.Admissible config loads)
    (hremote : ∀ on, .setRemoteState i on ∈ acts → ∀ state : Workstation,
      mirror.get { state with desiredOutput := on } = mirror.get state) :
    Fleet.Follows cjson config mirror
      (plant.run cjson config loads parse answers acts).fleet i := by
  induction acts generalizing plant with
  | nil => exact hf
  | cons act acts ih =>
    have hact := hacts act List.mem_cons_self
    refine ih (Regular.step hcfg hdistinct hl hp h hact)
      (follows_step hc hcfg hdistinct hl hp h hf hact fun on hon => ?_)
      (fun act' hact' => hacts act' (List.mem_cons_of_mem _ hact'))
      fun on hon => hremote on (List.mem_cons_of_mem _ hon)
    exact hremote on (hon ▸ List.mem_cons_self)

end Regular

/-- A client of the backend that accepts every command refuses none. -/
theorem undisturbed_accepting {ι : Type} [DecidableEq ι] {cjson : CJson}
    {config : ι → DeviceConfig} {loads : Loads} (hl : loads.Standard) {answers : Nat → Bool}
    (haccepts : ∀ n, answers n = true) {i : ι} {plant : Plant ι} {act : FleetAct ι}
    (hrunning : ∀ r env kept, act ≠ .restart i r env kept) :
    ¬ Disturbs cjson config loads answers i plant (.fleet act) := by
  rintro (⟨r, env, kept, rfl⟩ | hrefused)
  · exact hrunning r env kept rfl
  · refine hrefused ?_
    rcases fleet_middleware plant.fleet act with hsame | ⟨callback, hmiddleware⟩
    · rw [hsame, newPublished, List.drop_length]
      rfl
    · rw [hmiddleware]
      cases hown : callback.accepted loads (config i).deviceId.text with
      | false => exact addressed_other hl answers _ hown false
      | true =>
        have hstation := (Callback.accepted_iff _ callback).mp hown
        obtain ⟨x, hx, hid⟩ := Option.map_eq_some_iff.mp hstation
        rw [addressed_own hl answers _ hx hid, if_neg (by simp [haccepts])]

/-! ## The result -/

/-- Nothing of a station's reports and commands is on its way, and no command
waits in its event queue. -/
structure Arrived {ι : Type} (plant : Plant ι) (i : ι) : Prop where
  channel : plant.fleet.channels i = []
  commands : plant.commands i = []
  queued : ∀ e ∈ (plant.fleet.stations i).eventQueue.items, e.output? = none

theorem Arrived.relay_pending {ι : Type} {plant : Plant ι} {i : ι} (h : plant.Arrived i)
    (config : ι → DeviceConfig) (parse : CJsonParse) :
    (plant.relay config parse i).pending = [] := by
  rw [relay, outputRelay, h.commands]
  simpa using h.queued

/-- With nothing on its way, the LED shows what the ERP wants exactly if the
relay agrees. -/
theorem Arrived.agrees_iff {ι : Type} {plant : Plant ι} {i : ι} (h : plant.Arrived i)
    (config : ι → DeviceConfig) (parse : CJsonParse)
    (hshown : (outputsOf (plant.fleet.stations i).application).Shown true) :
    (plant.relay config parse i).Agrees ↔
      (plant.fleet.stations i).application.statusLed.level =
        if (plant.fleet.middleware.adapter.record (config i).deviceId.text).desiredOutput
        then 1 else 0 := by
  have hlevel : (plant.fleet.stations i).application.statusLed.level =
      if (plant.fleet.stations i).application.stateManager.outputState = true then 1 else 0 :=
    hshown.level
  rw [Relay.Agrees, Relay.newest, h.relay_pending, hlevel]
  show (plant.fleet.stations i).application.stateManager.outputState =
    (plant.fleet.middleware.adapter.record (config i).deviceId.text).desiredOutput ↔ _
  cases (plant.fleet.stations i).application.stateManager.outputState <;>
    cases (plant.fleet.middleware.adapter.record (config i).deviceId.text).desiredOutput <;> simp

end Plant

/-- In every run of a plant, from a start of a station on and until it starts
again, while none of its commands is lost, rejected or refused: once its switch
has been reported and nothing of it is on its way, in either direction, the
record has the switch, and the LED shows the output that the ERP wants, which
is the switch too unless somebody changed it in the ERP. It does not matter
what was lost before the start, how often a message comes, and what the other
stations do. -/
theorem led_follows_switch {ι : Type} [DecidableEq ι] (cjson : CJson) (hc : cjson.Standard)
    (loads : Loads) (hl : loads.Standard) (parse : CJsonParse) (hp : StandardParse parse)
    (answers : Nat → Bool) (config : ι → DeviceConfig) (hcfg : ∀ i, ValidConfig (config i))
    (hdistinct : ∀ i j, i ≠ j → (config i).deviceId.text ≠ (config j).deviceId.text)
    (env : ι → Nat → Answer) (henv : ∀ i k, (env i k).allocated = true)
    (r : ι → Station.Readings) (hr : ∀ i, (r i).Early) (middleware : Middleware)
    (before acts : List (PlantAct ι))
    (hacts : ∀ act ∈ before ++ acts, act.Admissible config loads) (i : ι) :
    let plant := (Plant.start env r middleware).run cjson config loads parse answers before
    let plant' := plant.run cjson config loads parse answers acts
    let s' := plant'.fleet.stations i
    let record := plant'.fleet.middleware.adapter.record (config i).deviceId.text
    (∃ r₀, plant.fleet.stations i = Station.boot r₀) →
    NeverBad (Plant.step cjson config loads parse answers)
      (Plant.Disturbs cjson config loads answers i) plant acts →
    s'.toggleInput.initialEventPending = false → Calm s' 2 → plant'.Arrived i →
      record.taskDone = s'.toggleInput.state ∧
      s'.application.statusLed.level = (if record.desiredOutput then 1 else 0) ∧
      ((∀ on, .setRemoteState i on ∉ acts) → record.desiredOutput = s'.toggleInput.state) := by
  rintro plant plant' s' record ⟨r₀, hstarted⟩ hok hpending hcalm harrived
  have hbefore : ∀ act ∈ before, act.Admissible config loads := fun act hact =>
    hacts act (List.mem_append_left _ hact)
  have hafter : ∀ act ∈ acts, act.Admissible config loads := fun act hact =>
    hacts act (List.mem_append_right _ hact)
  have hstart : ∀ i, Plant.Regular cjson config (Plant.start env r middleware) i :=
    Plant.start_regular henv hr middleware
  have hregular : ∀ i, Plant.Regular cjson config plant i :=
    Plant.Regular.run hcfg hdistinct hl hp hstart hbefore
  have hregular' : Plant.Regular cjson config plant' i :=
    Plant.Regular.run hcfg hdistinct hl hp hregular hafter i
  have hdone : Fleet.Follows cjson config Mirror.taskDone plant.fleet i :=
    Plant.follows_run hc hcfg hdistinct hl hp hstart
      (Fleet.start_follows env r middleware Mirror.taskDone i) hbefore fun _ _ _ => rfl
  obtain ⟨events, honway, -⟩ := hdone
  -- what MQTT has accepted of the switch since the start
  have haccepted : lastWrite Event.toggle? s'.application.accepted =
      some s'.toggleInput.state :=
    Sensor.toggle.last_accepted hregular'.sane.healthy hregular'.truthful hc
      hregular'.sane.memory hcalm.1 hcalm.2 (DigitalInput.reported?_of hpending)
  have hfollows : ∀ mirror : Mirror Input.toggle Bool, mirror.convert = id →
      (∀ on, .setRemoteState i on ∈ acts → ∀ state : Workstation,
        mirror.get { state with desiredOutput := on } = mirror.get state) →
      mirror.get record = s'.toggleInput.state := by
    intro mirror hconvert hremote
    have hfresh : Fleet.Follows cjson config mirror plant.fleet i := by
      refine ⟨events, honway, fun v hv => ?_⟩
      rw [hstarted] at hv
      cases hv
    obtain ⟨later, hlater, hlast⟩ :=
      Plant.follows_run hc hcfg hdistinct hl hp hregular hfresh hafter hremote
    obtain rfl : later = [] := by
      have hnone := hlater.payloads
      rw [harrived.channel] at hnone
      exact List.map_eq_nil_iff.mp hnone.symm
    have hshown := hlast s'.toggleInput.state haccepted
    rw [hconvert] at hshown
    exact hshown
  refine ⟨hfollows Mirror.taskDone rfl fun _ _ _ => rfl, ?_, fun hremote =>
    hfollows Plant.desiredOutput rfl fun on hon => absurd hon (hremote on)⟩
  obtain ⟨later, hlater, hanswer⟩ := (Plant.Answered.started hstarted honway).run hc hcfg hdistinct
    hl hp hregular hafter hok
  obtain rfl : later = [] := by
    have hnone := hlater.payloads
    rw [harrived.channel] at hnone
    exact List.map_eq_nil_iff.mp hnone.symm
  have hreported : ∃ e ∈ s'.application.accepted, e.toggle?.isSome = true := by
    by_contra hnone
    have hnone' : lastWrite Event.toggle? s'.application.accepted = none :=
      lastWrite_eq_none.mpr fun e he => by
        have := fun h => hnone ⟨e, he, h⟩
        simpa using this
    rw [hnone'] at haccepted
    cases haccepted
  rcases hanswer hreported with ⟨e, he, -⟩ | hagrees
  · cases he
  · exact (harrived.agrees_iff config parse hregular'.shown).mp hagrees

/-- The output of the second station is changed in the ERP, the command is
lost, and the power of the station fails; its switch is on. -/
def switchedOn : List (PlantAct Bool) :=
  [.setRemoteState true true, .lose true 0,
   .fleet (.restart true { toggleLevel := 0 } everOnline 0)]

/-- The switch is reported, answered, and the command obeyed. -/
def obeyed : List (PlantAct Bool) :=
  [.fleet (.task true (.wait 30)), .fleet (.task true (.pollToggle 0 30)),
   .fleet (.task true (.central 0)), .fleet (.deliver true 7 false), .command true false,
   .fleet (.task true (.central 0)), .fleet (.task true (.central 0)),
   .fleet (.task true (.central 0))]

theorem readings_switch (toggleLevel : Nat) :
    ({ toggleLevel := toggleLevel } : Station.Readings).Early := by
  have hzero : (0 : UInt64).toNat < 10 ^ 15 := by decide
  exact ⟨hzero, hzero⟩

theorem obeyed_admissible :
    ∀ act ∈ switchedOn ++ obeyed, act.Admissible twoConfigs Loads.reference := by
  simp only [switchedOn, obeyed, List.cons_append, List.nil_append, List.forall_mem_cons,
    List.not_mem_nil, IsEmpty.forall_iff, implies_true, and_true]
  have hthirty : (30 : UInt64).toNat < 10 ^ 15 := by decide
  exact ⟨trivial, trivial, ⟨readings_switch 0, fun _ => rfl⟩, ⟨trivial, hthirty⟩,
    ⟨trivial, hthirty⟩, ⟨trivial, trivial⟩, trivial, trivial, ⟨trivial, trivial⟩,
    ⟨trivial, trivial⟩, ⟨trivial, trivial⟩⟩

theorem obeyed_undisturbed :
    NeverBad (Plant.step CJson.reference twoConfigs Loads.reference referenceParse fun _ => true)
      (Plant.Disturbs CJson.reference twoConfigs Loads.reference (fun _ => true) true)
      ((Plant.start (fun _ => everOnline) (fun _ : Bool => {}) {}).run CJson.reference twoConfigs
        Loads.reference referenceParse (fun _ => true) switchedOn) obeyed := by
  have hfleet : ∀ (plant : Plant Bool) (act : FleetAct Bool),
      (∀ r env kept, act ≠ .restart true r env kept) →
      ¬ Plant.Disturbs CJson.reference twoConfigs Loads.reference (fun _ => true) true plant
        (.fleet act) := fun plant act =>
    Plant.undisturbed_accepting Loads.reference_standard (fun _ => rfl)
  simp only [obeyed, neverBad_cons]
  refine ⟨hfleet _ _ ?_, hfleet _ _ ?_, hfleet _ _ ?_, hfleet _ _ ?_, fun h => absurd h.2.2 ?_,
    hfleet _ _ ?_, hfleet _ _ ?_, hfleet _ _ ?_, neverBad_nil⟩
  case refine_5 => decide +kernel
  all_goals rintro r env kept ⟨⟩

theorem led_follows_switch_obeyed :
    ((((Plant.start (fun _ => everOnline) (fun _ : Bool => {}) {}).run CJson.reference twoConfigs
      Loads.reference referenceParse (fun _ => true) switchedOn).run CJson.reference twoConfigs
      Loads.reference referenceParse (fun _ => true) obeyed).fleet.stations
        true).application.statusLed.level = 1 := by
  have hled := led_follows_switch CJson.reference CJson.reference_standard Loads.reference
    Loads.reference_standard referenceParse referenceParse_standard (fun _ => true) twoConfigs
    twoConfigs_valid twoConfigs_distinct (fun _ => everOnline) (fun _ _ => rfl)
    (fun _ : Bool => {}) (fun _ => readings_early 0) {} switchedOn obeyed obeyed_admissible true
    ⟨{ toggleLevel := 0 }, rfl⟩ obeyed_undisturbed
  -- one evaluation of the run for everything that has to hold at its end
  have hend := fun h : _ ∧ _ ∧ _ ∧ _ ∧ _ ∧ _ =>
    hled h.1 ⟨h.2.1, h.2.2.1⟩ ⟨h.2.2.2.1, h.2.2.2.2.1, h.2.2.2.2.2⟩
  obtain ⟨-, hlevel, hswitch⟩ := hend (by decide +kernel)
  refine hlevel.trans ?_
  rw [hswitch (by simp [obeyed])]
  decide +kernel

/-- In every run of a plant, whatever was lost, rejected or refused before and
however often stations started: when a station has kept running undisturbed
for a while and nothing of it is on its way, its LED shows what the ERP wants
exactly if the newest output on its way did so at the beginning of that while,
or a command for the station has been published since. -/
theorem led_recovers_iff {ι : Type} [DecidableEq ι] (cjson : CJson) (loads : Loads)
    (hl : loads.Standard) (parse : CJsonParse) (hp : StandardParse parse)
    (answers : Nat → Bool) (config : ι → DeviceConfig) (hcfg : ∀ i, ValidConfig (config i))
    (hdistinct : ∀ i j, i ≠ j → (config i).deviceId.text ≠ (config j).deviceId.text)
    (env : ι → Nat → Answer) (henv : ∀ i k, (env i k).allocated = true)
    (r : ι → Station.Readings) (hr : ∀ i, (r i).Early) (middleware : Middleware)
    (before acts : List (PlantAct ι))
    (hacts : ∀ act ∈ before ++ acts, act.Admissible config loads) (i : ι) :
    let run := Plant.run cjson config loads parse answers
    let plant := run (Plant.start env r middleware) before
    let plant' := run plant acts
    NeverBad (Plant.step cjson config loads parse answers)
      (Plant.Disturbs cjson config loads answers i) plant acts →
    plant'.Arrived i →
      ((plant'.fleet.stations i).application.statusLed.level =
          (if (plant'.fleet.middleware.adapter.record (config i).deviceId.text).desiredOutput
            then 1 else 0) ↔
        (plant.relay config parse i).newest =
            (plant.fleet.middleware.adapter.record (config i).deviceId.text).desiredOutput ∨
          ∃ earlier act later, acts = earlier ++ act :: later ∧
            Plant.Publishes cjson config loads answers i (run plant earlier) act) := by
  intro run plant plant' hok harrived
  have hregular : ∀ i, Plant.Regular cjson config plant i :=
    Plant.Regular.run hcfg hdistinct hl hp (Plant.start_regular henv hr middleware)
      fun act hact => hacts act (List.mem_append_left _ hact)
  have hafter : ∀ act ∈ acts, act.Admissible config loads := fun act hact =>
    hacts act (List.mem_append_right _ hact)
  have hregular' : Plant.Regular cjson config plant' i :=
    Plant.Regular.run hcfg hdistinct hl hp hregular hafter i
  have hnever : NeverBad (Plant.step cjson config loads parse answers)
      (fun plant act => ¬ act.Admissible config loads ∨
        Plant.Disturbs cjson config loads answers i plant act) plant acts := by
    rintro earlier act later rfl (hbad | hbad)
    · exact hbad (hafter act (by simp))
    · exact hok earlier act later rfl hbad
  have hrelay : ∀ (plant : Plant ι) (act : PlantAct ι),
      (∀ i, Plant.Regular cjson config plant i) → ¬ (¬ act.Admissible config loads ∨
        Plant.Disturbs cjson config loads answers i plant act) → _ ∧ _ :=
    fun plant act h hgood => Plant.step_relay hcfg hdistinct hl hp (h i).sane (h i).commands
      (not_not.mp fun hbad => hgood (.inl hbad)) fun hbad => hgood (.inr hbad)
  have hwritten := Relay.agrees_iff_written
    (fun plant act h hgood => Plant.Regular.step hcfg hdistinct hl hp h
      (not_not.mp fun hbad => hgood (.inl hbad)))
    (fun plant act h hgood => (hrelay plant act h hgood).1)
    (fun plant act h hgood => (hrelay plant act h hgood).2) hregular hnever
  have hsame : (plant'.relay config parse i).Agrees ↔ (plant.relay config parse i).Agrees ∨
      ¬ NeverBad (Plant.step cjson config loads parse answers)
        (Plant.Publishes cjson config loads answers i) plant acts := hwritten
  rw [← harrived.agrees_iff config parse hregular'.shown, hsame]
  refine or_congr Iff.rfl ?_
  simp only [NeverBad, not_forall, not_not, exists_prop]
  rfl

/-- A change in the ERP whose command is lost, and the same change again. -/
def lostCommand : List (PlantAct Bool) := [.setRemoteState true true, .lose true 0]

def repeatedChange : List (PlantAct Bool) :=
  [.setRemoteState true true, .command true false, .fleet (.task true (.central 0))]

theorem led_recovers_iff_repeated :
    ((((Plant.start (fun _ => everOnline) (fun _ : Bool => {}) {}).run CJson.reference twoConfigs
      Loads.reference referenceParse (fun _ => true) lostCommand).run CJson.reference twoConfigs
      Loads.reference referenceParse (fun _ => true) repeatedChange).fleet.stations
        true).application.statusLed.level =
    if ((((Plant.start (fun _ => everOnline) (fun _ : Bool => {}) {}).run CJson.reference twoConfigs
      Loads.reference referenceParse (fun _ => true) lostCommand).run CJson.reference twoConfigs
      Loads.reference referenceParse (fun _ => true) repeatedChange).fleet.middleware.adapter.record
        (twoConfigs true).deviceId.text).desiredOutput then 1 else 0 := by
  have hrecovers := led_recovers_iff CJson.reference Loads.reference Loads.reference_standard
    referenceParse referenceParse_standard (fun _ => true) twoConfigs twoConfigs_valid
    twoConfigs_distinct (fun _ => everOnline) (fun _ _ => rfl) (fun _ : Bool => {})
    (fun _ => readings_early 0) {} lostCommand repeatedChange ?_ true ?_ ⟨?_, ?_, ?_⟩
  · exact hrecovers.mpr (.inr ⟨[], .setRemoteState true true, _, rfl, rfl⟩)
  · simp only [lostCommand, repeatedChange, List.cons_append, List.nil_append,
      List.forall_mem_cons, List.not_mem_nil, IsEmpty.forall_iff, implies_true, and_true]
    exact ⟨trivial, trivial, trivial, trivial, trivial, trivial⟩
  · simp only [repeatedChange, neverBad_cons]
    refine ⟨id, fun h => absurd h.2.2 (by decide +kernel), ?_, neverBad_nil⟩
    refine Plant.undisturbed_accepting Loads.reference_standard (fun _ => rfl) ?_
    rintro r env kept ⟨⟩
  all_goals decide +kernel

end KaizenStation.EndToEnd
