/-
KaizenStation.EndToEnd.Redelivery — messages that come several times in a
row.

Events carry absolute values: handling one again at once changes nothing more
and returns the same command (`handleEvent_again`). Commands do so too: the
station that obeys one again keeps its output and its LED (`outputs_again`).
What holds of one message holds of whole lists with repetitions in place, of
any number of stations (`redelivery_harmless`).
-/
import KaizenStation.Foundation.Stutter
import KaizenStation.Backend.ServiceTheorems
import KaizenStation.Firmware.StateManagerTheorems
import KaizenStation.Firmware.IndependenceTheorems
import KaizenStation.EndToEnd.Commands

namespace KaizenStation.EndToEnd

open KaizenStation.Foundation KaizenStation.Backend KaizenStation.Firmware

/-! ## The adapter -/

section Adapter

variable (loads : Loads)

/-- One event: the adapter it leaves and the publications it returns. -/
def adapterStep (adapter : MockOdooAdapter) (x : StationEvent × Option Int) :
    MockOdooAdapter × List Publication :=
  ((adapter.handleEvent loads x.1 x.2).1, (adapter.handleEvent loads x.1 x.2).2.toOption.getD [])

theorem publications_outputs (adapter : MockOdooAdapter) (xs : List (StationEvent × Option Int)) :
    adapter.publications loads xs = outputs (adapterStep loads) adapter xs := by
  induction xs generalizing adapter with
  | nil => rfl
  | cons x xs ih =>
    rw [MockOdooAdapter.publications, ih]
    rfl

theorem workstation_again (state : Workstation) (event : StationEvent) (receivedAtNs : Option Int) :
    (state.handleEvent event receivedAtNs).1.handleEvent event receivedAtNs =
      state.handleEvent event receivedAtNs := by
  cases receivedAtNs <;> cases h : event.eventType <;>
    simp [Workstation.handleEvent, Workstation.stamped, h]

/-- An event that is handled again leaves the same adapter and returns the same
publications. -/
theorem handleEvent_again (adapter : MockOdooAdapter) (event : StationEvent)
    (receivedAtNs : Option Int) :
    (adapter.handleEvent loads event receivedAtNs).1.handleEvent loads event receivedAtNs =
      adapter.handleEvent loads event receivedAtNs := by
  have hstore : ∀ state : Workstation, (adapter.store event.deviceId state).store event.deviceId
      state = adapter.store event.deviceId state := by
    intro state
    simp only [MockOdooAdapter.store, MockOdooAdapter.mk.injEq]
    funext name
    split <;> rfl
  simp only [MockOdooAdapter.handleEvent, MockOdooAdapter.record_store, workstation_again, hstore]

theorem adapterStep_again (adapter : MockOdooAdapter) (x : StationEvent × Option Int) :
    adapterStep loads (adapterStep loads adapter x).1 x = adapterStep loads adapter x := by
  simp only [adapterStep, handleEvent_again]

/-- An event is answered with one command at most. -/
theorem adapterStep_length (adapter : MockOdooAdapter) (x : StationEvent × Option Int) :
    (adapterStep loads adapter x).2.length ≤ 1 := by
  simp only [adapterStep, MockOdooAdapter.handleEvent]
  cases ((adapter.record x.1.deviceId).handleEvent x.1 x.2).2 with
  | none => simp [Except.toOption]
  | some command =>
    cases h : makeCommand loads x.1.deviceId command.1 command.2 <;>
      simp [h, bind, Except.bind, pure, Except.pure, Except.toOption]

end Adapter

/-! ## The station -/

/-- A publication and the clock when it is parsed. -/
abbrev Arrival := Publication × UInt64

section Commands

variable (parse : CJsonParse)

/-- `parseCommand` on the payload, and `processEvent` if it is accepted. -/
def obey (p : Platform) (a : Application) (arrival : Arrival) : Application :=
  let (accepted, event) := MessageSerializer.parseCommand parse arrival.2 arrival.1.2.toUTF8 {}
  if accepted then a.processEvent p event else a

/-- The output that a payload asks for, if it is a command. -/
def asked? (publication : Publication) : Option Bool :=
  let (accepted, event) := MessageSerializer.parseCommand parse 0 publication.2.toUTF8 {}
  if accepted then event.output? else none

/-- The clock changes the stamp of a command and nothing else. -/
theorem parseCommand_clock (now now' : UInt64) (payload : ByteArray) (e e' : Event) :
    (MessageSerializer.parseCommand parse now payload e).1 = false ∧
        (MessageSerializer.parseCommand parse now' payload e').1 = false ∨
      ∃ event : Event,
        MessageSerializer.parseCommand parse now payload e =
          (true, { event with timestampMs := now }) ∧
        MessageSerializer.parseCommand parse now' payload e' =
          (true, { event with timestampMs := now' }) := by
  unfold MessageSerializer.parseCommand
  split
  · exact .inl ⟨rfl, rfl⟩
  · split
    · simp only
      split
      · exact .inl ⟨rfl, rfl⟩
      · split
        · exact .inl ⟨rfl, rfl⟩
        · split
          · exact .inl ⟨rfl, rfl⟩
          · next type htype => exact .inr ⟨{ type := type, value := _ }, rfl, rfl⟩
    · exact .inl ⟨rfl, rfl⟩

/-- The output and the LED of a station. -/
abbrev Outputs := Bool × LedDriver

def outputsOf (a : Application) : Outputs := (a.stateManager.outputState, a.statusLed)

/-- What a command makes of them. -/
def Outputs.set (s : Outputs) (on? : Option Bool) : Outputs :=
  on?.elim s fun on => (on, s.2.set on)

theorem outputsOf_processEvent (p : Platform) (a : Application) (event : Event) :
    outputsOf (a.processEvent p event) = (outputsOf a).set event.output? := by
  simp only [outputsOf, a.processEvent_stateManager, a.processEvent_statusLed,
    StateManager.writes_outputState _ event, OutputManager.handleEvent_output, Outputs.set]
  cases event.output? <;> rfl

theorem outputsOf_obey (p : Platform) (a : Application) (arrival : Arrival) :
    outputsOf (obey parse p a arrival) = (outputsOf a).set (asked? parse arrival.1) := by
  unfold obey asked?
  rcases parseCommand_clock parse arrival.2 0 arrival.1.2.toUTF8 {} {} with ⟨h, h'⟩ |
    ⟨event, h, h'⟩
  · simp only [h, h', Bool.false_eq_true, if_false]
    rfl
  · simp only [h, h', if_true]
    exact outputsOf_processEvent p a _

/-- A command that comes again sets what is set. -/
theorem outputs_again (s : Outputs) (publication : Publication) :
    (s.set (asked? parse publication)).set (asked? parse publication) =
      s.set (asked? parse publication) := by
  cases asked? parse publication <;> rfl

theorem outputsOf_obeyAll (p : Platform) (a : Application) (arrivals : List Arrival) :
    outputsOf (arrivals.foldl (obey parse p) a) =
      (arrivals.map (·.1)).foldl (fun s publication => s.set (asked? parse publication))
        (outputsOf a) := by
  induction arrivals generalizing a with
  | nil => rfl
  | cons arrival arrivals ih =>
    rw [List.foldl_cons, ih, outputsOf_obey]
    rfl

end Commands

/-! ## The result -/

/-- Events of any stations, each handled once or several times in a row: the
records are the same, the commands are repeated in place, and a station that
gets any selection of them, at whatever times and with whatever network, ends
with the same output and the same level at its LED. -/
theorem redelivery_harmless (loads : Loads) (parse : CJsonParse) (adapter : MockOdooAdapter)
    {events repeated : List (StationEvent × Option Int)} (h : Stutter events repeated) :
    (∀ station, (adapter.handleEvents loads repeated).workstations station =
      (adapter.handleEvents loads events).workstations station) ∧
    Stutter (adapter.publications loads events) (adapter.publications loads repeated) ∧
    ∀ (selected : Publication → Bool) (p p' : Platform) (a : Application)
      (arrivals arrivals' : List Arrival),
      arrivals.map (·.1) = (adapter.publications loads events).filter selected →
      arrivals'.map (·.1) = (adapter.publications loads repeated).filter selected →
        (arrivals'.foldl (obey parse p') a).stateManager.outputState =
          (arrivals.foldl (obey parse p) a).stateManager.outputState ∧
        (arrivals'.foldl (obey parse p') a).statusLed.level =
          (arrivals.foldl (obey parse p) a).statusLed.level := by
  obtain ⟨hfinal, hout⟩ := h.run (adapterStep_again loads) (adapterStep_length loads) adapter
  rw [← publications_outputs, ← publications_outputs] at hout
  refine ⟨fun station => ?_, hout, ?_⟩
  · exact congrFun (congrArg MockOdooAdapter.workstations hfinal) station
  · intro selected p p' a arrivals arrivals' harrivals harrivals'
    have hsame : outputsOf (arrivals'.foldl (obey parse p') a) =
        outputsOf (arrivals.foldl (obey parse p) a) := by
      rw [outputsOf_obeyAll, outputsOf_obeyAll, harrivals, harrivals']
      exact (hout.filter selected).foldl (outputs_again parse) _
    exact ⟨congrArg Prod.fst hsame, congrArg (fun s : Outputs => s.2.level) hsame⟩

/-- A switch turned on, and a request for the state. -/
def switched : StationEvent × Option Int :=
  ({ deviceId := "a", sequenceId := 0, eventType := .toggleChanged, sourceId := 2, value := 1,
     timestampMs := 7, firmwareVersion := "1" }, some 5)

def synced : StationEvent × Option Int :=
  ({ deviceId := "a", sequenceId := 1, eventType := .syncRequested, sourceId := 0, value := 0,
     timestampMs := 9, firmwareVersion := "1" }, some 6)

/-- Every publication, parsed at one time. -/
def arrivingAt (now : UInt64) (publications : List Publication) : List Arrival :=
  publications.map fun publication => (publication, now)

theorem arrivingAt_map (now : UInt64) (publications : List Publication) :
    (arrivingAt now publications).map (·.1) = publications := by
  simp [arrivingAt, Function.comp_def]

/-- The switch comes three times, the request twice. -/
theorem redelivery_harmless_switched :
    ((arrivingAt 4 (({} : MockOdooAdapter).publications Loads.reference
      [switched, switched, switched, synced, synced])).foldl (obey referenceParse Platform.online)
        (Application.boot (OfflineEventStore.create 1))).stateManager.outputState = true := by
  have hrepeated : Stutter [switched, synced] [switched, switched, switched, synced, synced] :=
    .cons switched 2 (.cons synced 1 .nil)
  have honce : ((arrivingAt 3 (({} : MockOdooAdapter).publications Loads.reference
      [switched, synced])).foldl (obey referenceParse Platform.offline)
        (Application.boot (OfflineEventStore.create 1))).stateManager.outputState = true := by
    decide +kernel
  have hsame := (redelivery_harmless Loads.reference referenceParse {} hrepeated).2.2
    (fun _ => true) Platform.offline Platform.online
    (Application.boot (OfflineEventStore.create 1)) _ _
    ((arrivingAt_map 3 _).trans (List.filter_true _).symm)
    ((arrivingAt_map 4 _).trans (List.filter_true _).symm)
  exact hsame.1.trans honce

end KaizenStation.EndToEnd
