/-
KaizenStation.EndToEnd.Bench — the measuring stations of `bench/harness.py`
with the middleware between them.

A command says neither which event it answers nor when that was sent, so a
station takes the next command for that of its oldest toggle without one. A
`Bench` is any number of stations, the middleware under test and the messages
on their way; any of them can be lost or come twice, and clients refuse as
they like. Times are left out: a round-trip time is kept as the pair it was
taken between.

`settle` waits until no station awaits a command. If nothing comes twice, it
then has every toggle paired with its own command, whatever happened before
(`bench_measures`).
-/
import KaizenStation.Foundation.Pairing
import KaizenStation.Backend.Codec
import KaizenStation.Backend.Demo
import KaizenStation.EndToEnd.ClosedLoop

namespace KaizenStation.EndToEnd

open KaizenStation.Foundation KaizenStation.Backend

/-! ## The load -/

/-- `INPUT_KINDS`. -/
def INPUT_KINDS : List (InputKind × Int) :=
  [(.buttonPressed, 1), (.toggleChanged, 2), (.encoderChanged, 3), (.analogChanged, 4)]

/-- `next_input`. -/
def nextInput (step inputsPerStation : Nat) : InputKind × Int × Int × Nat :=
  let (kind, source) :=
    INPUT_KINDS.get ⟨step % INPUT_KINDS.length, Nat.mod_lt step (by decide)⟩
  let value : Int :=
    if kind = .buttonPressed then 1
    else if kind = .toggleChanged then ↑(step % 2)
    else if kind = .encoderChanged then ↑(step % 1000)
    else ↑(step * 7 % 101)
  (kind, source, value, step % max 1 inputsPerStation)

/-! ## One station -/

/-- A command for a station, with the number of the event it was made for,
which the command does not tell. -/
structure Generated where
  publication : Publication
  origin : Int
  deriving DecidableEq

/-- `class BenchStation`. -/
structure BenchStation where
  model : SimulatedStation
  /-- The numbers of the events in `awaiting`. -/
  awaiting : List Int := []
  /-- For each time in `roundtrip_us`, the number of the event it counts from
  and the command it counts to. -/
  roundtrips : List (Int × Generated) := []
  published : Nat := 0
  publishFailures : Nat := 0
  bufferDrops : Nat := 0
  commandsReceived : Nat := 0
  reconnects : Nat := 0

/-- The numbers of the toggles among these events. -/
def toggles (events : List StationEvent) : List Int :=
  (events.filter fun e => e.eventType = .toggleChanged).map (·.sequenceId)

namespace BenchStation

/-- What `client` answers to call `n` of `_deliver`: whether it is connected,
and whether `publish` succeeds. -/
structure Client where
  connected : Nat → Bool
  success : Nat → Bool

/-- What `_deliver` returns. -/
def Client.accepts (client : Client) (n : Nat) : Bool := client.connected n && client.success n

variable (client : Client)

/-- What else call `n` of `_deliver` does, given its event and its answer. -/
def noted (s : BenchStation) (n : Nat) (attempt : StationEvent × Bool) : BenchStation :=
  if attempt.2 then
    { s with
      published := s.published + 1
      awaiting := s.awaiting ++ toggles [attempt.1] }
  else if client.connected n then { s with publishFailures := s.publishFailures + 1 }
  else s

/-- The model after some calls of `_deliver`. -/
def advance (s : BenchStation) (model : SimulatedStation) : BenchStation :=
  let before := s.model.attempts.length
  ((model.attempts.drop before).zipIdx before).foldl (fun s x => s.noted client x.2 x.1)
    { s with model := model }

/-- `BenchStation.emit`. -/
def emit (s : BenchStation) (kind : InputKind) (source value : Int) : BenchStation × Bool :=
  let (model, stored) := s.model.emit client.accepts kind source value
  let s := s.advance client model
  ({ s with bufferDrops := if stored then s.bufferDrops else s.bufferDrops + 1 }, stored)

/-- `BenchStation._on_connect`. -/
def onConnect (s : BenchStation) (isFailure : Bool) : BenchStation :=
  if isFailure then s
  else { s with reconnects := s.reconnects + 1 }.advance client (s.model.reconnect client.accepts)

/-- `BenchStation._on_disconnect`. -/
def onDisconnect (s : BenchStation) : BenchStation := { s with model := s.model.disconnect }

/-- `BenchStation._on_command`. -/
def onCommand (s : BenchStation) (command : Generated) : BenchStation :=
  let s := { s with commandsReceived := s.commandsReceived + 1 }
  match s.awaiting with
  | [] => s
  | sequence :: rest =>
    { s with awaiting := rest, roundtrips := s.roundtrips ++ [(sequence, command)] }

/-- The events accepted for publication since another state of the model. -/
def accepted (before after : SimulatedStation) : List StationEvent :=
  ((after.attempts.drop before.attempts.length).filter (·.2)).map (·.1)

end BenchStation

/-! ## The bench -/

/-- `class MiddlewareUnderTest`. Its times, and the counters of commands and
refusals, can be read off `published`. -/
structure MiddlewareUnderTest where
  middleware : Middleware := {}
  eventsReceived : Nat := 0

/-- Its `on_message`. -/
def MiddlewareUnderTest.onMessage (loads : Loads) (answers : Nat → Bool) (m : MiddlewareUnderTest)
    (callback : Callback) : MiddlewareUnderTest where
  middleware := m.middleware.onMessage loads answers callback
  eventsReceived := m.eventsReceived + 1

structure Bench (ι : Type) where
  stations : ι → BenchStation
  /-- The events on their way from each station, the oldest first. -/
  events : ι → List StationEvent
  middleware : MiddlewareUnderTest
  /-- The commands on their way to each station, the oldest first. -/
  commands : ι → List Generated

inductive BenchAct (ι : Type) where
  | emit (i : ι) (kind : InputKind) (source value : Int)
  | connect (i : ι) (isFailure : Bool)
  | disconnect (i : ι)
  /-- The oldest event of a station arrives, and is perhaps sent again. -/
  | event (i : ι) (timeNs : Int) (again : Bool)
  /-- The oldest command for a station arrives, and is perhaps sent again. -/
  | command (i : ι) (again : Bool)
  | loseEvent (i : ι) (k : Nat)
  | loseCommand (i : ι) (k : Nat)

section Steps

variable {ι : Type} [DecidableEq ι] (ids : ι → String) (clients : ι → BenchStation.Client)
  (floatRepr : Rat → String) (loads : Loads) (answers : Nat → Bool)

namespace Bench

/-- `build_stations`, before anything is connected. -/
def start (ids : ι → String) (capacity : Nat) : Bench ι where
  stations := fun i => { model := { station := ids i, capacity := capacity } }
  events := fun _ => []
  middleware := {}
  commands := fun _ => []

/-- What `on_message` gets for an event of a station, whose `to_json` always
has a text (`RawEvent.toJson_raw`). -/
def ingress (station : String) (e : StationEvent) (timeNs : Int) : Callback where
  topic := eventTopicOf station
  payload := .bytes (e.raw.text floatRepr).toUTF8
  retain := false
  timeNs := timeNs

/-- What a station gets of what was published for an event. -/
def generated (station : String) (e : StationEvent) (made : List (Publication × Bool)) :
    List Generated :=
  (made.filter fun x => x.2 && decide (x.1.1 = commandTopicOf station)).map fun x =>
    { publication := x.1, origin := e.sequenceId }

/-- A station goes on; the events its client accepted are on their way. -/
def update (b : Bench ι) (i : ι) (s : BenchStation) : Bench ι :=
  { b with
    stations := Function.update b.stations i s
    events := Function.update b.events i
      (b.events i ++ BenchStation.accepted (b.stations i).model s.model) }

def step (b : Bench ι) : BenchAct ι → Bench ι
  | .emit i kind source value =>
    b.update i ((b.stations i).emit (clients i) kind source value).1
  | .connect i isFailure => b.update i ((b.stations i).onConnect (clients i) isFailure)
  | .disconnect i => b.update i (b.stations i).onDisconnect
  | .event i timeNs again =>
    match b.events i with
    | [] => b
    | e :: rest =>
      let middleware := b.middleware.onMessage loads answers (ingress floatRepr (ids i) e timeNs)
      { b with
        events := if again then b.events else Function.update b.events i rest
        middleware := middleware
        commands := fun j => b.commands j ++
          generated (ids j) e (newPublished b.middleware.middleware middleware.middleware) }
  | .command i again =>
    match b.commands i with
    | [] => b
    | command :: rest =>
      { b with
        stations := Function.update b.stations i ((b.stations i).onCommand command)
        commands := if again then b.commands else Function.update b.commands i rest }
  | .loseEvent i k => { b with events := Function.update b.events i ((b.events i).eraseIdx k) }
  | .loseCommand i k =>
    { b with commands := Function.update b.commands i ((b.commands i).eraseIdx k) }

def run (b : Bench ι) (acts : List (BenchAct ι)) : Bench ι :=
  acts.foldl (step ids clients floatRepr loads answers) b

/-- `outstanding`, in `settle`. -/
def outstanding (b : Bench ι) (stations : List ι) : Nat :=
  (stations.map fun i => (b.stations i).awaiting.length).sum

/-- A toggle of the station, or a command for it, comes and is sent again. -/
def Repeats (i : ι) (b : Bench ι) : BenchAct ι → Prop
  | .event j _ again => j = i ∧ again = true ∧ toggles ((b.events i).take 1) ≠ []
  | .command j again => j = i ∧ again = true
  | _ => False

/-- A toggle of the station, or a command for it, is lost, or the command is
refused by the client of the middleware. -/
def Loses (i : ι) (b : Bench ι) : BenchAct ι → Prop
  | .event j _ _ => j = i ∧ toggles ((b.events i).take 1) ≠ [] ∧
      answers b.middleware.middleware.published.length = false
  | .loseEvent j k => j = i ∧ toggles ((b.events i)[k]?.toList) ≠ []
  | .loseCommand j _ => j = i
  | _ => False

end Bench

/-- Stations emit what the table of inputs allows; only toggles are answered. -/
def BenchAct.Admissible : BenchAct ι → Prop
  | .emit _ kind source value => kind ≠ .syncRequested ∧ source = (INPUTS kind).1 ∧
      (INPUTS kind).2.1 ≤ value ∧ value ≤ (INPUTS kind).2.2
  | _ => True

end Steps

/-- So does the load of the benchmark, at every step. -/
theorem nextInput_admissible {ι : Type} (i : ι) (step inputsPerStation : Nat) :
    (BenchAct.emit i (nextInput step inputsPerStation).1 (nextInput step inputsPerStation).2.1
      (nextInput step inputsPerStation).2.2.1).Admissible := by
  have hlength : INPUT_KINDS.length = 4 := rfl
  have hcases : step % 4 = 0 ∨ step % 4 = 1 ∨ step % 4 = 2 ∨ step % 4 = 3 := by omega
  simp only [BenchAct.Admissible, nextInput, List.get_eq_getElem, hlength]
  rcases hcases with h | h | h | h <;> simp [h, INPUT_KINDS, INPUTS] <;> omega

/-! ## What a station sends -/

@[simp] theorem toggles_nil : toggles [] = [] := rfl

@[simp] theorem toggles_append (events events' : List StationEvent) :
    toggles (events ++ events') = toggles events ++ toggles events' := by
  simp [toggles]

theorem toggles_cons (e : StationEvent) (events : List StationEvent) :
    toggles (e :: events) = toggles [e] ++ toggles events := toggles_append [e] events

theorem toggles_sublist {events events' : List StationEvent} (h : events.Sublist events') :
    (toggles events).Sublist (toggles events') := (h.filter _).map _

/-- Without an event that is no toggle the toggles are the same. -/
theorem toggles_eraseIdx {events : List StationEvent} {k : Nat}
    (h : toggles (events[k]?.toList) = []) : toggles (events.eraseIdx k) = toggles events := by
  induction events generalizing k with
  | nil => rfl
  | cons e rest ih =>
    cases k with
    | zero =>
      have hnone : toggles [e] = [] := h
      rw [List.eraseIdx_cons_zero, toggles_cons, hnone, List.nil_append]
    | succ k =>
      rw [List.eraseIdx_cons_succ, toggles_cons, toggles_cons e rest, ih h]

/-- An event as the stations of the bench make them, with a number below the
bound. -/
structure Sent (station : String) (bound : Nat) (e : StationEvent) : Prop where
  device : e.deviceId = station
  quiet : e.eventType ≠ .syncRequested
  fits : e.Fits
  sequence : 0 ≤ e.sequenceId ∧ e.sequenceId < bound
  timestamp : e.timestampMs = e.sequenceId * 100
  version : e.firmwareVersion = "0.1.0"

theorem Sent.mono {station : String} {bound bound' : Nat} {e : StationEvent}
    (h : Sent station bound e) (hle : bound ≤ bound') : Sent station bound' e :=
  { h with sequence := ⟨h.sequence.1, by have := h.sequence.2; omega⟩ }

theorem Sent.wellFormed {station : String} {bound : Nat} {e : StationEvent}
    (h : Sent station bound e) (hid : isDeviceId station = true) (hbound : bound ≤ 2 ^ 32) :
    e.WellFormed := by
  obtain ⟨hlow, hhigh⟩ := h.sequence
  refine ⟨h.device ▸ hid, ⟨hlow, by omega⟩, ?_, h.fits.source, ?_⟩
  · rw [h.timestamp]
    omega
  · rw [h.version]
    decide

/-- What the model of a station has made. -/
structure Made (station : String) (s : SimulatedStation) : Prop where
  name : s.station = station
  events : ∀ e, e ∈ s.pending ∨ e ∈ s.attempts.map (·.1) → Sent station s.sequence e

theorem Made.grows {station : String} {s s' : SimulatedStation} (h : Made station s)
    {new : List StationEvent} (hgrows : RetryBuffer.Grows new s.buffer s'.buffer)
    (hname : s'.station = s.station) (hsequence : s.sequence ≤ s'.sequence)
    (hnew : ∀ e ∈ new, Sent station s'.sequence e) : Made station s' := by
  refine ⟨hname.trans h.name, fun e he => ?_⟩
  have hold : e ∈ s.pending ∨ e ∈ s.attempts.map (·.1) → Sent station s'.sequence e :=
    fun he => (h.events e he).mono hsequence
  rcases he with he | he
  · rcases hgrows.pending e he with he | he
    · exact hold (.inl he)
    · exact hnew e he
  · rcases hgrows.attempted e he with he | he | he
    · exact hold (.inr he)
    · exact hold (.inl he)
    · exact hnew e he

namespace BenchStation

variable (client : Client)

theorem noted_foldl (s : BenchStation) (attempts : List (StationEvent × Bool)) (n : Nat) :
    ((attempts.zipIdx n).foldl (fun s x => s.noted client x.2 x.1) s).model = s.model ∧
    ((attempts.zipIdx n).foldl (fun s x => s.noted client x.2 x.1) s).roundtrips =
      s.roundtrips ∧
    ((attempts.zipIdx n).foldl (fun s x => s.noted client x.2 x.1) s).awaiting =
      s.awaiting ++ toggles ((attempts.filter (·.2)).map (·.1)) := by
  induction attempts generalizing s n with
  | nil => simp
  | cons attempt attempts ih =>
    rw [List.zipIdx_cons, List.foldl_cons]
    obtain ⟨hmodel, hroundtrips, hawaiting⟩ := ih (s.noted client n attempt) (n + 1)
    rw [hmodel, hroundtrips, hawaiting]
    obtain ⟨e, answer⟩ := attempt
    cases answer with
    | true =>
      have htoggles := toggles_cons e ((attempts.filter (·.2)).map (·.1))
      refine ⟨rfl, rfl, ?_⟩
      rw [List.filter_cons_of_pos rfl, List.map_cons, htoggles, ← List.append_assoc]
      rfl
    | false => cases hconnected : client.connected n <;> simp [noted, hconnected]

/-- The station from one state to the next, less the commands it gets. -/
structure Goes (station : String) (s s' : BenchStation) : Prop where
  attempts : s.model.attempts <+: s'.model.attempts
  awaiting : s'.awaiting = s.awaiting ++ toggles (accepted s.model s'.model)
  roundtrips : s'.roundtrips = s.roundtrips
  made : Made station s'.model
  sequence : s.model.sequence ≤ s'.model.sequence ∧ s'.model.sequence ≤ s.model.sequence + 1

variable {station : String} {s : BenchStation}

theorem advance_goes {model : SimulatedStation} (h : Made station s.model)
    {new : List StationEvent} (hgrows : RetryBuffer.Grows new s.model.buffer model.buffer)
    (hname : model.station = s.model.station)
    (hsequence : s.model.sequence ≤ model.sequence ∧ model.sequence ≤ s.model.sequence + 1)
    (hnew : ∀ e ∈ new, Sent station model.sequence e) :
    Goes station s (s.advance client model) := by
  obtain ⟨hmodel, hroundtrips, hawaiting⟩ := noted_foldl client { s with model := model }
    (model.attempts.drop s.model.attempts.length) s.model.attempts.length
  have hmodel' : (s.advance client model).model = model := hmodel
  refine ⟨?_, ?_, hroundtrips, ?_, ?_⟩ <;> rw [hmodel']
  · exact hgrows.attempts
  · exact hawaiting
  · exact h.grows hgrows hname hsequence.1 hnew
  · exact hsequence

theorem emit_goes (h : Made station s.model) {kind : InputKind} {source value : Int}
    (hact : kind ≠ .syncRequested ∧ source = (INPUTS kind).1 ∧ (INPUTS kind).2.1 ≤ value ∧
      value ≤ (INPUTS kind).2.2) : Goes station s (s.emit client kind source value).1 := by
  obtain ⟨hquiet, hsource, hlow, hhigh⟩ := hact
  have hsettings := SimulatedStation.emit_settings client.accepts s.model kind source value
  have hsequence : (s.model.emit client.accepts kind source value).1.sequence =
      s.model.sequence + 1 := hsettings.sequence
  have hgrows : RetryBuffer.Grows [s.model.event kind source value] s.model.buffer
      (s.model.emit client.accepts kind source value).1.buffer := by
    rw [SimulatedStation.emit_buffer]
    exact RetryBuffer.submit_grows _ _ _ _ _
  have hgoes := advance_goes client h hgrows hsettings.station (by omega) fun e he => by
    rw [List.mem_singleton.mp he, hsequence]
    refine ⟨h.name, hquiet, ⟨hsource, hlow, hhigh⟩, ?_, rfl, rfl⟩
    simp only [SimulatedStation.event]
    omega
  exact ⟨hgoes.attempts, hgoes.awaiting, hgoes.roundtrips, hgoes.made, hgoes.sequence⟩

theorem onConnect_goes (h : Made station s.model) (isFailure : Bool) :
    Goes station s (s.onConnect client isFailure) := by
  unfold onConnect
  cases isFailure with
  | true =>
    refine ⟨List.prefix_rfl, ?_, rfl, h, Nat.le_refl _, Nat.le_succ _⟩
    simp [accepted]
  | false =>
    have hsettings := SimulatedStation.flush_settings client.accepts { s.model with online := true }
    have hgrows : RetryBuffer.Grows [] s.model.buffer
        (s.model.reconnect client.accepts).buffer := by
      rw [SimulatedStation.reconnect, SimulatedStation.flush_buffer]
      exact RetryBuffer.flush_grows _ _ _
    have hsequence : (s.model.reconnect client.accepts).sequence = s.model.sequence :=
      hsettings.sequence
    have hname : (s.model.reconnect client.accepts).station = s.model.station :=
      hsettings.station
    have hgoes := @advance_goes client station { s with reconnects := s.reconnects + 1 } _ h []
      hgrows hname (by simp only; omega) (by simp)
    exact ⟨hgoes.attempts, hgoes.awaiting, hgoes.roundtrips, hgoes.made, hgoes.sequence⟩

theorem onDisconnect_goes (h : Made station s.model) : Goes station s s.onDisconnect := by
  refine ⟨List.prefix_rfl, ?_, rfl, ⟨h.name, h.events⟩, Nat.le_refl _, Nat.le_succ _⟩
  simp [accepted, onDisconnect, SimulatedStation.disconnect]

theorem delivered_goes {s' : BenchStation} (h : Goes station s s') :
    s'.model.delivered = s.model.delivered ++ accepted s.model s'.model := by
  obtain ⟨rest, hrest⟩ := h.attempts
  rw [SimulatedStation.delivered, SimulatedStation.delivered, accepted, ← hrest, List.filter_append,
    List.map_append, List.drop_left]

theorem accepted_goes {s' : BenchStation} (h : Goes station s s') :
    ∀ e ∈ accepted s.model s'.model, Sent station s'.model.sequence e := by
  intro e he
  obtain ⟨attempt, hattempt, rfl⟩ := List.mem_map.mp he
  have hmem := List.mem_of_mem_drop (List.mem_of_mem_filter hattempt)
  exact h.made.events _ (.inr (List.mem_map_of_mem hmem))

end BenchStation

/-! ## What the middleware answers -/

section Answer

variable {floatRepr : Rat → String} {loads : Loads} (hl : loads.Standard) (answers : Nat → Bool)
  {station : String} {bound : Nat} {e : StationEvent}

include hl

theorem ingress_event? (he : Sent station bound e) (hid : isDeviceId station = true)
    (hbound : bound ≤ 2 ^ 32) (timeNs : Int) :
    (Bench.ingress floatRepr station e timeNs).event? loads = some (e, some timeNs) := by
  have hw := he.wellFormed hid hbound
  have htext := RawEvent.objectText_raw floatRepr e
  have hlength : (Payload.bytes (e.raw.text floatRepr).toUTF8).len ≤ 4096 :=
    (Payload.Carries.len_le (.inr rfl)).trans (RawEvent.utf8Length_object hw he.fits htext)
  have hparse := parseEvent_object hl hw htext (.inr rfl) hlength
  rw [integer_within _ he.fits.low he.fits.high, he.device] at hparse
  simp only [Callback.event?, Bench.ingress, hparse]
  rfl

omit hl in
/-- Toggles are answered, other events of the bench are not. -/
theorem answered (he : Sent station bound e) (state : Workstation) (receivedAtNs : Option Int) :
    ((state.handleEvent e receivedAtNs).2.isSome = true ∧ toggles [e] = [e.sequenceId]) ∨
      ((state.handleEvent e receivedAtNs).2 = none ∧ toggles [e] = []) := by
  have hquiet := he.quiet
  cases hkind : e.eventType <;> simp_all [Workstation.handleEvent, toggles]

/-- For the station of the event, one command if it is a toggle. -/
theorem generated_own (he : Sent station bound e) (hid : isDeviceId station = true)
    (hbound : bound ≤ 2 ^ 32) (m : Middleware) (timeNs : Int) :
    (Bench.generated station e (newPublished m
      (m.onMessage loads answers (Bench.ingress floatRepr station e timeNs)))).map (·.origin) =
        if answers m.published.length then toggles [e] else [] := by
  have hevent : (Bench.ingress floatRepr station e timeNs).event? loads = _ :=
    ingress_event? hl he hid hbound timeNs
  obtain rfl := he.device
  rw [newPublished, onMessage_published hl, hevent, List.drop_left]
  rcases answered he (m.adapter.record e.deviceId) (some timeNs) with
    ⟨hsome, htoggle⟩ | ⟨hnone, htoggle⟩
  · obtain ⟨c, hc⟩ := Option.isSome_iff_exists.mp hsome
    simp only [hc, htoggle, Option.toList_some, List.map_cons, List.map_nil]
    cases answers m.published.length <;> simp [Bench.generated]
  · simp [hnone, htoggle, Bench.generated]

/-- For another station none. -/
theorem generated_other (he : Sent station bound e) (hid : isDeviceId station = true)
    (hbound : bound ≤ 2 ^ 32) {station' : String} (hne : station' ≠ station) (m : Middleware)
    (timeNs : Int) :
    Bench.generated station' e (newPublished m
      (m.onMessage loads answers (Bench.ingress floatRepr station e timeNs))) = [] := by
  have hevent : (Bench.ingress floatRepr station e timeNs).event? loads = _ :=
    ingress_event? hl he hid hbound timeNs
  have htopic : commandTopicOf station ≠ commandTopicOf station' := fun h =>
    hne (commandTopicOf_inj h).symm
  obtain rfl := he.device
  rw [newPublished, onMessage_published hl, hevent, List.drop_left]
  cases hc : ((m.adapter.record e.deviceId).handleEvent e (some timeNs)).2 <;>
    simp [hc, Bench.generated, htopic]

end Answer

/-! ## One act of the bench -/

namespace Bench

variable {ι : Type} [DecidableEq ι] {ids : ι → String} {clients : ι → BenchStation.Client}
  {floatRepr : Rat → String} {loads : Loads} {answers : Nat → Bool} {b : Bench ι} {i : ι}

/-- The toggles of a station and the commands for them. -/
def pairing (b : Bench ι) (i : ι) : Pairing Int where
  asked := toggles (b.stations i).model.delivered
  awaiting := (b.stations i).awaiting
  coming := (b.commands i).map (·.origin) ++ toggles (b.events i)
  pairs := (b.stations i).roundtrips.map fun x => (x.1, x.2.origin)

variable (ids) in
structure Steady (b : Bench ι) (i : ι) : Prop where
  made : Made (ids i) (b.stations i).model
  onWay : ∀ e ∈ b.events i, Sent (ids i) (b.stations i).model.sequence e

variable (ids) in
/-- What one act is for a station. -/
inductive Effect (b b' : Bench ι) (i : ι) (repeats loses : Prop) : Prop where
  | goes (s : BenchStation) : BenchStation.Goes (ids i) (b.stations i) s → b'.stations i = s →
      b'.events i = b.events i ++ BenchStation.accepted (b.stations i).model s.model →
      b'.commands i = b.commands i → Effect b b' i repeats loses
  /-- An event arrives, and what is made for it is on its way. -/
  | event (e : StationEvent) (rest : List StationEvent) (again answer : Bool)
      (made : List Generated) : b.events i = e :: rest → b'.stations i = b.stations i →
      b'.events i = (if again then b.events i else rest) →
      b'.commands i = b.commands i ++ made →
      made.map (·.origin) = (if answer then toggles [e] else []) →
      (again = true → toggles [e] ≠ [] → repeats) →
      (answer = false → toggles [e] ≠ [] → loses) → Effect b b' i repeats loses
  | command (g : Generated) (rest : List Generated) (again : Bool) : b.commands i = g :: rest →
      b'.stations i = (b.stations i).onCommand g → b'.events i = b.events i →
      b'.commands i = (if again then b.commands i else rest) → (again = true → repeats) →
      Effect b b' i repeats loses
  /-- Something is lost, or the act is none of the station's. -/
  | pass : b'.stations i = b.stations i → (b'.events i).Sublist (b.events i) →
      (b'.commands i).Sublist (b.commands i) →
      (¬ loses → toggles (b'.events i) = toggles (b.events i) ∧ b'.commands i = b.commands i) →
      Effect b b' i repeats loses

theorem onCommand_model (s : BenchStation) (g : Generated) : (s.onCommand g).model = s.model := by
  unfold BenchStation.onCommand
  simp only
  split <;> rfl

namespace Effect

variable {b' : Bench ι} {repeats loses : Prop}

omit [DecidableEq ι]

theorem elsewhere (hstation : b'.stations i = b.stations i) (hevents : b'.events i = b.events i)
    (hcommands : b'.commands i = b.commands i) : Effect ids b b' i repeats loses := by
  refine .pass hstation ?_ ?_ fun _ => ⟨by rw [hevents], hcommands⟩
  · rw [hevents]
  · rw [hcommands]

theorem steady (h : Effect ids b b' i repeats loses) (hs : b.Steady ids i) :
    b'.Steady ids i ∧ (b.stations i).model.sequence ≤ (b'.stations i).model.sequence ∧
      (b'.stations i).model.sequence ≤ (b.stations i).model.sequence + 1 := by
  have hsame : (b'.stations i).model = (b.stations i).model →
      (∀ e ∈ b'.events i, e ∈ b.events i) → b'.Steady ids i ∧
        (b.stations i).model.sequence ≤ (b'.stations i).model.sequence ∧
        (b'.stations i).model.sequence ≤ (b.stations i).model.sequence + 1 := by
    intro hmodel hevents
    rw [hmodel]
    refine ⟨⟨hmodel ▸ hs.made, fun e he => ?_⟩, Nat.le_refl _, Nat.le_succ _⟩
    rw [hmodel]
    exact hs.onWay e (hevents e he)
  cases h with
  | goes s hgoes hstation hevents _ =>
    rw [← hstation] at hgoes hevents
    refine ⟨⟨hgoes.made, fun e he => ?_⟩, hgoes.sequence⟩
    rw [hevents] at he
    rcases List.mem_append.mp he with he | he
    · exact (hs.onWay e he).mono hgoes.sequence.1
    · exact BenchStation.accepted_goes hgoes e he
  | event e rest again answer made hevents hstation hevents' =>
    refine hsame (by rw [hstation]) fun x hx => ?_
    rw [hevents'] at hx
    cases again with
    | true => exact hx
    | false => exact hevents ▸ List.mem_cons_of_mem e hx
  | command g rest again _ hstation hevents' =>
    refine hsame ?_ fun x hx => hevents' ▸ hx
    rw [hstation, onCommand_model]
  | pass hstation hevents => exact hsame (by rw [hstation]) fun x hx => hevents.subset hx

theorem turn (h : Effect ids b b' i repeats loses) (honce : ¬ repeats) :
    Pairing.Turn (b.pairing i) (b'.pairing i) loses := by
  cases h with
  | goes s hgoes hstation hevents hcommands =>
    refine .ask (toggles (BenchStation.accepted (b.stations i).model s.model)) ?_ ?_ ?_ ?_
    · simp only [pairing, hstation, BenchStation.delivered_goes hgoes, toggles_append]
    · simp only [pairing, hstation, hgoes.awaiting]
    · simp only [pairing, hevents, hcommands, toggles_append, List.append_assoc]
    · simp only [pairing, hstation, hgoes.roundtrips]
  | event e rest again answer made hevents hstation hevents' hcommands hmade hagain hrefused =>
    have hrest : toggles (b.events i) = toggles [e] ++ toggles rest := by
      rw [hevents, toggles_cons]
    -- a toggle is not sent again, and of other events the pairing knows nothing
    have hnext : toggles (b'.events i) = toggles rest := by
      rw [hevents']
      cases again with
      | false => rfl
      | true =>
        have hnone : toggles [e] = [] := by
          by_contra hne
          exact honce (hagain rfl hne)
        rw [if_pos rfl, hrest, hnone, List.nil_append]
    refine .pass (by simp only [pairing, hstation]) (by simp only [pairing, hstation])
      (by simp only [pairing, hstation]) ?_ fun hkept => ?_
    · simp only [pairing, hcommands, hnext, hrest, List.map_append, hmade, List.append_assoc]
      refine (List.Sublist.refl _).append ?_
      cases answer with
      | true => exact List.Sublist.refl _
      | false => exact List.sublist_append_right _ _
    · simp only [pairing, hcommands, hnext, hrest, List.map_append, hmade, List.append_assoc]
      cases answer with
      | true => rfl
      | false =>
        have hnone : toggles [e] = [] := by
          by_contra hne
          exact hkept (hrefused rfl hne)
        simp [hnone]
  | command g rest again hcommands hstation hevents hcommands' hagain =>
    obtain rfl : again = false := by
      cases again with
      | false => rfl
      | true => exact absurd (hagain rfl) honce
    have hmodel := onCommand_model (b.stations i) g
    refine .answer g.origin (rest.map (·.origin) ++ toggles (b.events i)) ?_ ?_ ?_
      fun x later hx => ?_
    · simp only [pairing, hcommands, List.map_cons, List.cons_append]
    · simp only [pairing, hstation, hmodel]
    · simp only [pairing, hcommands', hevents]
      rfl
    · have hawaiting : (b.stations i).awaiting = x :: later := hx
      simp only [pairing, hstation, BenchStation.onCommand, hawaiting]
      exact ⟨trivial, by simp⟩
  | pass hstation hevents hcommands hkept =>
    refine .pass (by simp only [pairing, hstation]) (by simp only [pairing, hstation])
      (by simp only [pairing, hstation]) ?_ fun hnot => ?_
    · exact (hcommands.map _).append (toggles_sublist hevents)
    · obtain ⟨htoggles, hsame⟩ := hkept hnot
      simp only [pairing, htoggles, hsame]

end Effect

section Step

variable (hl : loads.Standard) (hids : ∀ i, isDeviceId (ids i) = true)
  (hdistinct : ∀ i j, i ≠ j → ids i ≠ ids j)

theorem update_effect {j : ι} {s : BenchStation} {repeats loses : Prop}
    (h : BenchStation.Goes (ids j) (b.stations j) s) :
    Effect ids b (b.update j s) i repeats loses := by
  by_cases hij : i = j
  · subst hij
    exact .goes s h (Function.update_self ..) (Function.update_self ..) rfl
  · refine .elsewhere ?_ ?_ rfl <;> simp [Bench.update, Function.update_of_ne hij]

include hl hids hdistinct in
theorem event_effect (hs : ∀ i, b.Steady ids i)
    (hbound : ∀ i, (b.stations i).model.sequence ≤ 2 ^ 32) (j : ι) (timeNs : Int) (again : Bool) :
    Effect ids b (b.step ids clients floatRepr loads answers (.event j timeNs again)) i
      (Repeats i b (.event j timeNs again)) (Loses answers i b (.event j timeNs again)) := by
  cases hevents : b.events j with
  | nil =>
    simp only [Bench.step, hevents]
    exact .elsewhere rfl rfl rfl
  | cons e rest =>
    have he : Sent (ids j) (b.stations j).model.sequence e :=
      (hs j).onWay e (hevents ▸ List.mem_cons_self)
    have hstation :
        (b.step ids clients floatRepr loads answers (.event j timeNs again)).stations i =
          b.stations i := by simp only [Bench.step, hevents]
    have hcommands : (b.step ids clients floatRepr loads answers
          (.event j timeNs again)).commands i = b.commands i ++ generated (ids i) e
        (newPublished b.middleware.middleware (b.middleware.middleware.onMessage loads answers
          (ingress floatRepr (ids j) e timeNs))) := by
      simp only [Bench.step, hevents, MiddlewareUnderTest.onMessage]
    by_cases hij : i = j
    · subst hij
      have hhead : toggles ((b.events i).take 1) = toggles [e] := by rw [hevents]; rfl
      refine .event e rest again _ _ hevents hstation ?_ hcommands
        (generated_own hl answers he (hids i) (hbound i) _ timeNs) (fun hagain hne => ?_)
        fun hrefused hne => ?_
      · cases again <;> simp [Bench.step, hevents]
      · exact ⟨rfl, hagain, hhead ▸ hne⟩
      · exact ⟨rfl, hhead ▸ hne, hrefused⟩
    · refine .elsewhere hstation ?_ ?_
      · cases again <;> simp [Bench.step, hevents, Function.update_of_ne hij]
      · rw [hcommands, generated_other hl answers he (hids j) (hbound j) (hdistinct i j hij),
          List.append_nil]

include hl hids hdistinct in
theorem step_effect (hs : ∀ i, b.Steady ids i)
    (hbound : ∀ i, (b.stations i).model.sequence ≤ 2 ^ 32) {act : BenchAct ι}
    (hact : act.Admissible) (i : ι) :
    Effect ids b (b.step ids clients floatRepr loads answers act) i (Repeats i b act)
      (Loses answers i b act) := by
  cases act with
  | emit j kind source value => exact update_effect (BenchStation.emit_goes _ (hs j).made hact)
  | connect j isFailure => exact update_effect (BenchStation.onConnect_goes _ (hs j).made isFailure)
  | disconnect j => exact update_effect (BenchStation.onDisconnect_goes (hs j).made)
  | event j timeNs again => exact event_effect hl hids hdistinct hs hbound j timeNs again
  | command j again =>
    cases hcommands : b.commands j with
    | nil =>
      simp only [Bench.step, hcommands]
      exact .elsewhere rfl rfl rfl
    | cons g rest =>
      simp only [Bench.step, hcommands]
      by_cases hij : i = j
      · subst hij
        refine .command g rest again hcommands (Function.update_self ..) rfl ?_ fun hagain => ?_
        · cases again <;> simp [hcommands]
        · exact ⟨rfl, hagain⟩
      · refine .elsewhere ?_ rfl ?_
        · simp [Function.update_of_ne hij]
        · cases again <;> simp [Function.update_of_ne hij]
  | loseEvent j k =>
    by_cases hij : i = j
    · subst hij
      refine .pass rfl ?_ (List.Sublist.refl _) fun hkept => ⟨?_, rfl⟩
      · simp only [Bench.step, Function.update_self]
        exact List.eraseIdx_sublist ..
      · simp only [Bench.step, Function.update_self]
        refine toggles_eraseIdx ?_
        by_contra hne
        exact hkept ⟨rfl, hne⟩
    · refine .elsewhere rfl ?_ rfl
      simp [Bench.step, Function.update_of_ne hij]
  | loseCommand j k =>
    by_cases hij : i = j
    · subst hij
      refine .pass rfl (List.Sublist.refl _) ?_ fun hkept => absurd rfl hkept
      simp only [Bench.step, Function.update_self]
      exact List.eraseIdx_sublist ..
    · refine .elsewhere rfl rfl ?_
      simp [Bench.step, Function.update_of_ne hij]

/-! ## Runs -/

include hl hids hdistinct in
/-- A run in which nothing of the station comes twice. -/
theorem run_kept (hs : ∀ i, b.Steady ids i) {acts : List (BenchAct ι)}
    (hbound : ∀ i, (b.stations i).model.sequence + acts.length ≤ 2 ^ 32)
    (hacts : ∀ act ∈ acts, act.Admissible) {i : ι}
    (honce : NeverBad (step ids clients floatRepr loads answers) (Repeats i) b acts)
    (h : (b.pairing i).Kept) :
    ((b.run ids clients floatRepr loads answers acts).pairing i).Kept ∧
      (NeverBad (step ids clients floatRepr loads answers) (Loses answers i) b acts →
        (b.pairing i).Exact →
          ((b.run ids clients floatRepr loads answers acts).pairing i).Exact) := by
  induction acts generalizing b with
  | nil => exact ⟨h, fun _ hexact => hexact⟩
  | cons act acts ih =>
    obtain ⟨hfirst, hrest⟩ := neverBad_cons.mp honce
    have heffect : ∀ i, Effect ids b (b.step ids clients floatRepr loads answers act) i
        (Repeats i b act) (Loses answers i b act) :=
      step_effect hl hids hdistinct hs (fun i => by have := hbound i; omega)
        (hacts act List.mem_cons_self)
    have hturn := (heffect i).turn hfirst
    have hnext := ih (fun i => ((heffect i).steady (hs i)).1)
      (fun i => by
        have hsequence := ((heffect i).steady (hs i)).2.2
        have hroom := hbound i
        rw [List.length_cons] at hroom
        omega)
      (fun a ha => hacts a (List.mem_cons_of_mem act ha)) hrest (h.turn hturn)
    refine ⟨hnext.1, fun hkept hexact => ?_⟩
    obtain ⟨hnone, hlater⟩ := neverBad_cons.mp hkept
    exact hnext.2 hlater (hexact.turn hnone hturn)

end Step

omit [DecidableEq ι] in
theorem start_steady (ids : ι → String) (capacity : Nat) (i : ι) :
    (start ids capacity).Steady ids i := by
  refine ⟨⟨rfl, ?_⟩, ?_⟩ <;> simp [start]

omit [DecidableEq ι] in
theorem outstanding_eq_zero {stations : List ι} (h : b.outstanding stations = 0) {i : ι}
    (hi : i ∈ stations) : (b.stations i).awaiting = [] := by
  have hzero := List.sum_eq_zero_iff_forall_eq_nat.mp h _ (List.mem_map_of_mem hi)
  exact List.eq_nil_of_length_eq_zero hzero

end Bench

/-! ## The result -/

/-- In every run of the benchmark with fewer than 2^32 acts, with any losses,
refusals and reconnections, but with nothing sent again: when `settle` finds
nothing outstanding, every toggle that a station delivered has exactly one
round-trip time, taken with its own command, and none is on its way. As long
as no toggle and no command of a station is lost or refused, all its times are
right at every moment, and what it awaits is what is on its way. -/
theorem bench_measures {ι : Type} [DecidableEq ι] (ids : ι → String)
    (hids : ∀ i, isDeviceId (ids i) = true) (hdistinct : ∀ i j, i ≠ j → ids i ≠ ids j)
    (loads : Loads) (hl : loads.Standard) (floatRepr : Rat → String) (answers : Nat → Bool)
    (clients : ι → BenchStation.Client) (capacity : Nat) (acts : List (BenchAct ι))
    (hacts : ∀ act ∈ acts, act.Admissible) (hfew : acts.length < 2 ^ 32) (stations : List ι)
    (honce : ∀ i ∈ stations, NeverBad (Bench.step ids clients floatRepr loads answers)
      (Bench.Repeats i) (Bench.start ids capacity) acts) :
    let b := (Bench.start ids capacity).run ids clients floatRepr loads answers acts
    (b.outstanding stations = 0 → ∀ i ∈ stations,
      (b.stations i).roundtrips.map (·.1) = toggles (b.stations i).model.delivered ∧
      (∀ x ∈ (b.stations i).roundtrips, x.2.origin = x.1) ∧
      b.commands i = [] ∧ toggles (b.events i) = []) ∧
    ∀ i ∈ stations, NeverBad (Bench.step ids clients floatRepr loads answers)
        (Bench.Loses answers i) (Bench.start ids capacity) acts →
      (∀ x ∈ (b.stations i).roundtrips, x.2.origin = x.1) ∧
      (b.stations i).awaiting = (b.commands i).map (·.origin) ++ toggles (b.events i) := by
  intro b
  have hrun : ∀ i ∈ stations, (b.pairing i).Kept ∧
      (NeverBad (Bench.step ids clients floatRepr loads answers) (Bench.Loses answers i)
        (Bench.start ids capacity) acts → (b.pairing i).Exact) := by
    intro i hi
    obtain ⟨hkept, hexact⟩ := Bench.run_kept hl hids hdistinct (Bench.start_steady ids capacity)
      (fun _ => by simp only [Bench.start]; omega) hacts (honce i hi)
      ⟨rfl, List.Sublist.refl []⟩
    exact ⟨hkept, fun hlost => hexact hlost
      ⟨rfl, by simp [Pairing.Right, Bench.pairing, Bench.start]⟩⟩
  have hright : ∀ i, (b.pairing i).Right → ∀ x ∈ (b.stations i).roundtrips, x.2.origin = x.1 :=
    fun i h x hx => (h _ (List.mem_map_of_mem hx)).symm
  refine ⟨fun hzero i hi => ?_, fun i hi hlost => ?_⟩
  · obtain ⟨hcoming, hall, hpairs⟩ := (hrun i hi).1.settled (Bench.outstanding_eq_zero hzero hi)
    obtain ⟨hcommands, hevents⟩ := List.append_eq_nil_iff.mp hcoming
    refine ⟨?_, hright i hpairs, List.map_eq_nil_iff.mp hcommands, hevents⟩
    simpa [Bench.pairing, List.map_map, Function.comp_def] using hall
  · obtain ⟨hawaiting, hpairs⟩ := (hrun i hi).2 hlost
    exact ⟨hright i hpairs, hawaiting⟩

/-- Two stations; one toggles, loses a message that is no toggle, and gets its
command. -/
def twoIds (second : Bool) : String := bif second then "station_02" else "station_01"

def oneRound : List (BenchAct Bool) :=
  [.connect true false, .emit true .toggleChanged 2 1, .emit true .analogChanged 4 7,
   .event true 5 false, .loseEvent true 0, .command true false]

theorem oneRound_once : NeverBad (Bench.step twoIds (fun _ => ⟨fun _ => true, fun _ => true⟩)
    (fun _ => "float") Loads.reference fun _ => true) (Bench.Repeats true)
    (Bench.start twoIds 64) oneRound := by
  simp [oneRound, neverBad_cons, neverBad_nil, Bench.Repeats]

theorem bench_measures_oneRound :
    (((Bench.start twoIds 64).run twoIds (fun _ => ⟨fun _ => true, fun _ => true⟩)
      (fun _ => "float") Loads.reference (fun _ => true) oneRound).stations
        true).roundtrips.map (·.1) = [1] := by
  have hacts : ∀ act ∈ oneRound, act.Admissible := by
    simp only [oneRound, List.forall_mem_cons, List.not_mem_nil, IsEmpty.forall_iff, implies_true,
      and_true, BenchAct.Admissible]
    decide
  obtain ⟨hsettled, -⟩ := bench_measures twoIds (by decide) (by decide) Loads.reference
    Loads.reference_standard (fun _ => "float") (fun _ => true)
    (fun _ => ⟨fun _ => true, fun _ => true⟩) 64 oneRound hacts (by decide) [true]
    fun i hi => List.mem_singleton.mp hi ▸ oneRound_once
  obtain ⟨hall, -⟩ := hsettled (by decide +kernel) true List.mem_cons_self
  refine hall.trans ?_
  decide +kernel

end KaizenStation.EndToEnd
