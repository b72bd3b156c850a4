/-
KaizenStation.EndToEnd.Fleet — many stations, one backend, and power
failures.

Every station runs its tasks on its own. What MQTT accepts of it is on its
way to the backend until it is delivered, possibly more than once. A station
that loses power starts anew: its queue, its store and its state are gone, and
of the messages on their way only those remain that the broker already had.
Messages from elsewhere come in between.

For each physical input, what is on its way or in the record is the last value
that MQTT accepted since the station started (`Fleet.Follows`), whoever else
does what. With the last report of the driver (`Sensor.last_accepted`) this
says when the record shows the input (`fleet_converges`).
-/
import Mathlib.Logic.Function.Basic
import KaizenStation.Firmware.ReportTheorems
import KaizenStation.Backend.IsolationTheorems
import KaizenStation.EndToEnd.Convergence

namespace KaizenStation.EndToEnd

open KaizenStation.Foundation KaizenStation.Firmware KaizenStation.Backend

/-! ## The fleet -/

structure Fleet (ι : Type) where
  /-- How the platform answers the calls of each station since it started. -/
  env : ι → Nat → Answer
  stations : ι → Station
  /-- The payloads on their way from each station, the oldest first. -/
  channels : ι → List String
  middleware : Middleware

inductive FleetAct (ι : Type) where
  /-- One act of one of the tasks of a station. -/
  | task (i : ι) (act : Act)
  /-- A station loses power and starts; the broker has the first `kept`
  messages on their way. -/
  | restart (i : ι) (r : Station.Readings) (env : Nat → Answer) (kept : Nat)
  /-- The oldest message of a station arrives, and is perhaps sent again. -/
  | deliver (i : ι) (timeNs : Int) (again : Bool)
  /-- A message from elsewhere arrives. -/
  | other (callback : Callback)

/-- What `on_message` gets for a payload of a station. -/
def arrival (config : DeviceConfig) (text : String) (timeNs : Int) : Callback where
  topic := MQTT_BASE_TOPIC ++ "/" ++ config.deviceId.text ++ "/events"
  payload := .bytes text.toUTF8
  retain := false
  timeNs := timeNs

/-- The payloads MQTT accepted between two states of an application. -/
def newPayloads (before after : Application) : List String :=
  after.payloads.drop before.payloads.length

section Steps

variable {ι : Type} [DecidableEq ι] (cjson : CJson) (config : ι → DeviceConfig) (loads : Loads)
  (answers : Nat → Bool)

namespace Fleet

def platform (f : Fleet ι) (i : ι) : Platform where
  config := config i
  cjson := cjson
  env := f.env i

/-- The fleet when every station has just started. Its store has got a mutex,
as it does on every later start. -/
def start (env : ι → Nat → Answer) (r : ι → Station.Readings) (middleware : Middleware) :
    Fleet ι where
  env := env
  stations := fun i => Station.boot (r i)
  channels := fun _ => []
  middleware := middleware

def step (f : Fleet ι) : FleetAct ι → Fleet ι
  | .task i act =>
    let station := (f.stations i).step (f.platform cjson config i) act
    { f with
      stations := Function.update f.stations i station
      channels := Function.update f.channels i
        (f.channels i ++ newPayloads (f.stations i).application station.application) }
  | .restart i r env kept =>
    { f with
      env := Function.update f.env i env
      stations := Function.update f.stations i (Station.boot r)
      channels := Function.update f.channels i ((f.channels i).take kept) }
  | .deliver i timeNs again =>
    match f.channels i with
    | [] => f
    | text :: rest =>
      { f with
        channels := if again then f.channels else Function.update f.channels i rest
        middleware := f.middleware.onMessage loads answers (arrival (config i) text timeNs) }
  | .other callback => { f with middleware := f.middleware.onMessage loads answers callback }

def run (f : Fleet ι) (acts : List (FleetAct ι)) : Fleet ι :=
  acts.foldl (step cjson config loads answers) f

/-- The middleware once everything on its way from a station has arrived. -/
def arrived (f : Fleet ι) (i : ι) : Middleware :=
  ((f.channels i).map fun text => arrival (config i) text 0).foldl
    (Middleware.onMessage loads answers) f.middleware

end Fleet

/-- Stations have no other producers than their own, clocks below 10^15 ms and
memory for cJSON; messages from elsewhere are on no station's topic, or not
accepted there. -/
def FleetAct.Admissible : FleetAct ι → Prop
  | .task _ act => act.Quiet ∧ act.Early
  | .restart _ r env _ => r.Early ∧ ∀ k, (env k).allocated = true
  | .deliver _ _ _ => True
  | .other callback => ∀ i, callback.accepted loads (config i).deviceId.text = false

end Steps

/-! ## One message -/

section Messages

variable {loads : Loads} (answers : Nat → Bool)

/-- A callback that is not accepted for a station leaves its record alone. -/
theorem onMessage_other {station : String} (m : Middleware) {callback : Callback}
    (h : callback.accepted loads station = false) :
    (m.onMessage loads answers callback).adapter.record station = m.adapter.record station := by
  have hkey : callback.station? loads ≠ some station := by
    intro hstation
    rw [(Callback.accepted_iff station callback).mpr hstation] at h
    cases h
  have hsame := (@Middleware.keyed_onMessage loads answers).other m callback station hkey
  exact congrArg (·.getD {}) hsame

/-- A payload of one station is not accepted for another. -/
theorem arrival_not_accepted {config config' : DeviceConfig} (hcfg : ValidConfig config)
    (hne : config.deviceId.text ≠ config'.deviceId.text) (text : String) (timeNs : Int) :
    (arrival config' text timeNs).accepted loads config.deviceId.text = false := by
  have htopic : eventTopic config.deviceId.text ≠ .ok (arrival config' text timeNs).topic := by
    rw [eventTopic_valid hcfg.device]
    exact fun h => hne (eventTopicOf_inj (Except.ok.inj h))
  simp [Callback.accepted, htopic]

variable {p : Platform} (hc : p.cjson.Standard) (hl : loads.Standard) (hcfg : ValidConfig p.config)
include hc hl hcfg

/-- The value a sent event gives a mirrored field. -/
def Mirror.sent? {γ δ : Type} {i : Input γ} (mirror : Mirror i δ) (event : Event) : Option δ :=
  (i.value? event).map mirror.convert

theorem Mirror.onMessage_own {γ δ : Type} {i : Input γ} (mirror : Mirror i δ) (m : Middleware)
    {event : Event} (h : event.Sendable) (timeNs : Int) :
    mirror.field p.config.deviceId.text
        (m.onMessage loads answers (arrival p.config (p.text event) timeNs)) =
      (mirror.sent? event).getD (mirror.field p.config.deviceId.text m) := by
  have hcarried : Carried p (p.text event) (arrival p.config (p.text event) timeNs).message :=
    ⟨rfl, .inr rfl⟩
  exact mirror.handleMessage hc hl hcfg answers m h.produced h.published h.early hcarried

/-- Everything on its way arrives. -/
theorem Mirror.onMessages_own {γ δ : Type} {i : Input γ} (mirror : Mirror i δ) (m : Middleware)
    {events : List Event} (h : ∀ e ∈ events, e.Sendable) :
    mirror.field p.config.deviceId.text
        (((events.map p.text).map fun text => arrival p.config text 0).foldl
          (Middleware.onMessage loads answers) m) =
      arriving mirror.sent? events (mirror.field p.config.deviceId.text m) := by
  induction events generalizing m with
  | nil => rfl
  | cons e events ih =>
    have hrest := ih (m.onMessage loads answers (arrival p.config (p.text e) 0))
      fun x hx => h x (List.mem_cons_of_mem e hx)
    rw [mirror.onMessage_own answers hc hl hcfg m (h e List.mem_cons_self),
      arriving_deliver] at hrest
    exact hrest

end Messages

/-! ## What is on its way -/

namespace Fleet

section Runs

variable {ι : Type} [DecidableEq ι] {cjson : CJson} (hc : cjson.Standard)
  {config : ι → DeviceConfig} (hcfg : ∀ i, ValidConfig (config i))
  (hdistinct : ∀ i j, i ≠ j → (config i).deviceId.text ≠ (config j).deviceId.text)
  {loads : Loads} (hl : loads.Standard) {answers : Nat → Bool}

/-- The record of a station, in one of its mirrored fields. -/
def shown (config : ι → DeviceConfig) {γ δ : Type} {input : Input γ} (mirror : Mirror input δ)
    (f : Fleet ι) (i : ι) : δ := mirror.field (config i).deviceId.text f.middleware

variable (cjson config) in
/-- What every station has at every moment. -/
structure Sane (f : Fleet ι) (i : ι) : Prop where
  healthy : (f.stations i).Healthy (f.platform cjson config i)
  memory : ∀ k, (f.env i k).allocated = true

variable (cjson config) in
/-- The payloads on their way are those of these events. -/
structure OnWay (f : Fleet ι) (i : ι) (events : List Event) : Prop where
  payloads : f.channels i = events.map (f.platform cjson config i).text
  sendable : ∀ e ∈ events, e.Sendable

variable (cjson config) in
/-- The last value accepted since the start is on its way or in the record. -/
def Follows {γ δ : Type} {input : Input γ} (mirror : Mirror input δ) (f : Fleet ι) (i : ι) : Prop :=
  ∃ events, OnWay cjson config f i events ∧
    ∀ v, lastWrite input.value? (f.stations i).application.accepted = some v →
      arriving mirror.sent? events (shown config mirror f i) = mirror.convert v

variable {γ δ : Type} {input : Input γ} {mirror : Mirror input δ} {f : Fleet ι} {i : ι}

section OnWay

omit [DecidableEq ι]

variable {f' : Fleet ι} {events sent : List Event}

theorem OnWay.send (h : OnWay cjson config f i events)
    (hchannel : f'.channels i = f.channels i ++ sent.map (f.platform cjson config i).text)
    (hsent : ∀ e ∈ sent, e.Sendable) : OnWay cjson config f' i (events ++ sent) := by
  refine ⟨?_, fun e he => (List.mem_append.mp he).elim (h.sendable e) (hsent e)⟩
  rw [hchannel, h.payloads, List.map_append]
  rfl

theorem OnWay.take (h : OnWay cjson config f i events) {kept : Nat}
    (hchannel : f'.channels i = (f.channels i).take kept) :
    OnWay cjson config f' i (events.take kept) := by
  refine ⟨?_, fun e he => h.sendable e (List.mem_of_mem_take he)⟩
  rw [hchannel, h.payloads, List.map_take]
  rfl

theorem OnWay.same (h : OnWay cjson config f i events) (hchannel : f'.channels i = f.channels i) :
    OnWay cjson config f' i events := ⟨hchannel.trans h.payloads, h.sendable⟩

/-- The oldest message carries the oldest event. -/
theorem OnWay.oldest (h : OnWay cjson config f i events) {text : String} {rest : List String}
    (hchannel : f.channels i = text :: rest) :
    ∃ e later, events = e :: later ∧ text = (f.platform cjson config i).text e ∧ e.Sendable ∧
      ∀ f' : Fleet ι, f'.channels i = rest → OnWay cjson config f' i later := by
  cases events with
  | nil =>
    have hnil := h.payloads
    rw [hchannel] at hnil
    cases hnil
  | cons e later =>
    have hsplit := h.payloads
    rw [hchannel, List.map_cons, List.cons.injEq] at hsplit
    exact ⟨e, later, rfl, hsplit.1, h.sendable e List.mem_cons_self, fun f' hrest =>
      ⟨hrest.trans hsplit.2, fun x hx => h.sendable x (List.mem_cons_of_mem e hx)⟩⟩

include hc hl hcfg in
/-- What arrives is what the event says. -/
theorem shown_deliver {text : String} {timeNs : Int} {e : Event}
    (hmiddleware : f'.middleware =
      f.middleware.onMessage loads answers (arrival (config i) text timeNs))
    (htext : text = (f.platform cjson config i).text e) (he : e.Sendable) :
    shown config mirror f' i = (mirror.sent? e).getD (shown config mirror f i) := by
  have hown := mirror.onMessage_own answers (p := f.platform cjson config i) hc hl (hcfg i)
    f.middleware he timeNs
  rw [shown, hmiddleware, htext]
  exact hown

end OnWay

section Follows

omit [DecidableEq ι]

variable {f' : Fleet ι}

/-- What a station sends is on its way afterwards. -/
theorem Follows.send (h : Follows cjson config mirror f i) {sent : List Event}
    (hsame : shown config mirror f' i = shown config mirror f i)
    (haccepted : (f'.stations i).application.accepted =
      (f.stations i).application.accepted ++ sent)
    (hchannel : f'.channels i = f.channels i ++ sent.map (f.platform cjson config i).text)
    (hsent : ∀ e ∈ sent, e.Sendable) : Follows cjson config mirror f' i := by
  obtain ⟨events, honway, hlast⟩ := h
  refine ⟨events ++ sent, honway.send hchannel hsent, fun v hv => ?_⟩
  rw [haccepted, lastWrite_append] at hv
  have hmap : lastWrite mirror.sent? sent = (lastWrite input.value? sent).map mirror.convert :=
    lastWrite_map _ _ _
  rw [arriving_send, hsame, hmap]
  cases hnew : lastWrite input.value? sent with
  | none =>
    rw [hnew, Option.none_or] at hv
    exact hlast v hv
  | some w =>
    rw [hnew, Option.some_or] at hv
    rw [Option.some.inj hv]
    rfl

/-- A station that has just started has sent nothing, and what is left of its
messages is still on its way. -/
theorem Follows.restart (h : Follows cjson config mirror f i) {r : Station.Readings}
    {kept : Nat} (hstation : f'.stations i = Station.boot r)
    (hchannel : f'.channels i = (f.channels i).take kept) :
    Follows cjson config mirror f' i := by
  obtain ⟨events, honway, -⟩ := h
  refine ⟨events.take kept, honway.take hchannel, fun v hv => ?_⟩
  rw [hstation] at hv
  cases hv

include hc hl hcfg in
/-- What arrives was on its way. -/
theorem Follows.deliver (h : Follows cjson config mirror f i) {text : String}
    {rest : List String} {timeNs : Int} {again : Bool} (hchannel : f.channels i = text :: rest)
    (hstation : f'.stations i = f.stations i)
    (hmiddleware : f'.middleware =
      f.middleware.onMessage loads answers (arrival (config i) text timeNs))
    (hchannel' : f'.channels i = if again then f.channels i else rest) :
    Follows cjson config mirror f' i := by
  obtain ⟨events, honway, hlast⟩ := h
  obtain ⟨e, later, rfl, htext, he, hlater⟩ := honway.oldest hchannel
  have hshown : shown config mirror f' i = (mirror.sent? e).getD (shown config mirror f i) :=
    shown_deliver hc hcfg hl hmiddleware htext he
  cases again with
  | true =>
    refine ⟨e :: later, honway.same hchannel', fun v hv => ?_⟩
    rw [hstation] at hv
    rw [hshown, arriving_again]
    exact hlast v hv
  | false =>
    refine ⟨later, hlater f' hchannel', fun v hv => ?_⟩
    rw [hstation] at hv
    rw [hshown, arriving_deliver]
    exact hlast v hv

/-- What happens elsewhere. -/
theorem Follows.same (h : Follows cjson config mirror f i)
    (hstation : f'.stations i = f.stations i) (hchannel : f'.channels i = f.channels i)
    (hshown : shown config mirror f' i = shown config mirror f i) :
    Follows cjson config mirror f' i := by
  obtain ⟨events, honway, hlast⟩ := h
  refine ⟨events, honway.same hchannel, fun v hv => ?_⟩
  rw [hstation] at hv
  rw [hshown]
  exact hlast v hv

end Follows

/-! ## One act -/

theorem Sane.step (h : ∀ i, f.Sane cjson config i) {act : FleetAct ι}
    (hact : act.Admissible config loads) (i : ι) :
    (f.step cjson config loads answers act).Sane cjson config i := by
  cases act with
  | task j act =>
    by_cases hij : i = j
    · subst hij
      have hstep := (h i).healthy.step hact.1 hact.2
      refine ⟨?_, (h i).memory⟩
      simp only [Fleet.step, Function.update_self]
      exact hstep
    · refine ⟨?_, (h i).memory⟩
      simp only [Fleet.step, Function.update_of_ne hij]
      exact (h i).healthy
  | restart j r env kept =>
    by_cases hij : i = j
    · subst hij
      refine ⟨?_, ?_⟩
      · simp only [Fleet.step, Function.update_self]
        exact Station.boot_healthy _ hact.1
      · simp only [Fleet.step, Function.update_self]
        exact hact.2
    · refine ⟨?_, ?_⟩
      · have hplatform : (f.step cjson config loads answers (.restart j r env kept)).platform cjson
            config i = f.platform cjson config i := by
          simp [Fleet.step, Fleet.platform, Function.update_of_ne hij]
        rw [hplatform]
        simp only [Fleet.step, Function.update_of_ne hij]
        exact (h i).healthy
      · simp only [Fleet.step, Function.update_of_ne hij]
        exact (h i).memory
  | deliver j timeNs again =>
    simp only [Fleet.step]
    split <;> exact ⟨(h i).healthy, (h i).memory⟩
  | other callback => exact ⟨(h i).healthy, (h i).memory⟩

variable (cjson config loads answers) in
/-- What one act of the fleet is for one of its stations. -/
inductive Effect (f f' : Fleet ι) (i : ι) : Prop where
  /-- The station goes on; what MQTT accepts is on its way. -/
  | task (act : Act) (sent : List Event) : act.Quiet → act.Early →
      f'.stations i = (f.stations i).step (f.platform cjson config i) act →
      (f'.stations i).application.accepted = (f.stations i).application.accepted ++ sent →
      f'.channels i = f.channels i ++ sent.map (f.platform cjson config i).text →
      (∀ e ∈ sent, e.Sendable) → f'.middleware = f.middleware → Effect f f' i
  | restart (r : Station.Readings) (kept : Nat) : f'.stations i = Station.boot r →
      f'.channels i = (f.channels i).take kept → f'.middleware = f.middleware → Effect f f' i
  | deliver (text : String) (rest : List String) (timeNs : Int) (again : Bool) :
      f.channels i = text :: rest → f'.stations i = f.stations i →
      f'.channels i = (if again then f.channels i else rest) →
      f'.middleware = f.middleware.onMessage loads answers (arrival (config i) text timeNs) →
      Effect f f' i
  /-- It happens to another station, or is none of its messages. -/
  | elsewhere : f'.stations i = f.stations i → f'.channels i = f.channels i →
      f'.middleware.adapter.record (config i).deviceId.text =
        f.middleware.adapter.record (config i).deviceId.text → Effect f f' i

include hcfg hdistinct in
theorem step_effect (hs : f.Sane cjson config i) {act : FleetAct ι}
    (hact : act.Admissible config loads) :
    Effect cjson config loads answers f (f.step cjson config loads answers act) i := by
  cases act with
  | task j act =>
    by_cases hij : i = j
    · subst hij
      obtain ⟨sent, haccepted, hpayloads⟩ := hs.healthy.accepts hact.1
      have hstation : (f.step cjson config loads answers (.task i act)).stations i =
          (f.stations i).step (f.platform cjson config i) act := by
        simp only [Fleet.step, Function.update_self]
      refine .task act sent hact.1 hact.2 hstation (hstation ▸ haccepted) ?_ ?_ rfl
      · simp only [Fleet.step, Function.update_self, newPayloads, hpayloads, List.drop_left]
      · intro e he
        refine (hs.healthy.step hact.1 hact.2).sendable e ?_
        rw [haccepted]
        exact List.mem_append_right _ he
    · refine .elsewhere ?_ ?_ rfl <;> simp only [Fleet.step, Function.update_of_ne hij]
  | restart j r env kept =>
    by_cases hij : i = j
    · subst hij
      refine .restart r kept ?_ ?_ rfl <;> simp only [Fleet.step, Function.update_self]
    · refine .elsewhere ?_ ?_ rfl <;> simp only [Fleet.step, Function.update_of_ne hij]
  | deliver j timeNs again =>
    cases hchannel : f.channels j with
    | nil =>
      simp only [Fleet.step, hchannel]
      exact .elsewhere rfl rfl rfl
    | cons text rest =>
      have hstation : (f.step cjson config loads answers (.deliver j timeNs again)).stations i =
          f.stations i := by simp only [Fleet.step, hchannel]
      have hmiddleware : (f.step cjson config loads answers (.deliver j timeNs again)).middleware =
          f.middleware.onMessage loads answers (arrival (config j) text timeNs) := by
        simp only [Fleet.step, hchannel]
      by_cases hij : i = j
      · subst hij
        refine .deliver text rest timeNs again hchannel hstation ?_ hmiddleware
        cases again <;> simp [Fleet.step, hchannel]
      · refine .elsewhere hstation ?_ ?_
        · cases again <;> simp [Fleet.step, hchannel, Function.update_of_ne hij]
        · rw [hmiddleware]
          exact onMessage_other answers f.middleware
            (arrival_not_accepted (hcfg i) (hdistinct i j hij) text timeNs)
  | other callback => exact .elsewhere rfl rfl (onMessage_other answers f.middleware (hact i))

include hc hl hcfg hdistinct in
theorem Follows.step (hs : f.Sane cjson config i) (h : Follows cjson config mirror f i)
    {act : FleetAct ι} (hact : act.Admissible config loads) :
    Follows cjson config mirror (f.step cjson config loads answers act) i := by
  have heffect : Effect cjson config loads answers f _ i := step_effect hcfg hdistinct hs hact
  cases heffect with
  | task act sent _ _ _ haccepted hchannel hsent hmiddleware =>
    exact h.send (by rw [shown, hmiddleware, shown]) haccepted hchannel hsent
  | restart r kept hstation hchannel _ => exact h.restart hstation hchannel
  | deliver text rest timeNs again hchannel hstation hchannel' hmiddleware =>
    exact h.deliver hc hcfg hl hchannel hstation hmiddleware hchannel'
  | elsewhere hstation hchannel hrecord =>
    exact h.same hstation hchannel (congrArg mirror.get hrecord)

/-! ## Runs -/

omit [DecidableEq ι] in
theorem start_sane {env : ι → Nat → Answer} (henv : ∀ i k, (env i k).allocated = true)
    {r : ι → Station.Readings} (hr : ∀ i, (r i).Early) (middleware : Middleware) (i : ι) :
    (start env r middleware).Sane cjson config i :=
  ⟨Station.boot_healthy _ (hr i), henv i⟩

omit [DecidableEq ι] in
theorem start_follows (env : ι → Nat → Answer) (r : ι → Station.Readings)
    (middleware : Middleware) (mirror : Mirror input δ) (i : ι) :
    Follows cjson config mirror (start env r middleware) i := by
  refine ⟨[], ⟨rfl, by simp⟩, fun v hv => ?_⟩
  cases hv

theorem truthful_step {sensor : Sensor γ} (hs : f.Sane cjson config i)
    (h : sensor.Truthful (f.stations i)) {act : FleetAct ι}
    (hact : act.Admissible config loads) :
    sensor.Truthful ((f.step cjson config loads answers act).stations i) := by
  cases act with
  | task j act =>
    by_cases hij : i = j
    · subst hij
      simp only [Fleet.step, Function.update_self]
      exact sensor.truthful_step hs.healthy h hact.1
    · simpa only [Fleet.step, Function.update_of_ne hij] using h
  | restart j r env kept =>
    by_cases hij : i = j
    · subst hij
      simp only [Fleet.step, Function.update_self]
      exact sensor.truthful_boot r
    · simpa only [Fleet.step, Function.update_of_ne hij] using h
  | deliver j timeNs again =>
    simp only [Fleet.step]
    split <;> exact h
  | other callback => exact h

include hc hl hcfg hdistinct

theorem run_follows (hs : ∀ i, f.Sane cjson config i) {sensor : Sensor γ}
    {mirror : Mirror sensor.toInput δ} (h : Follows cjson config mirror f i)
    (ht : sensor.Truthful (f.stations i)) {acts : List (FleetAct ι)}
    (hacts : ∀ act ∈ acts, act.Admissible config loads) :
    (f.run cjson config loads answers acts).Sane cjson config i ∧
      Follows cjson config mirror (f.run cjson config loads answers acts) i ∧
      sensor.Truthful ((f.run cjson config loads answers acts).stations i) := by
  induction acts generalizing f with
  | nil => exact ⟨hs i, h, ht⟩
  | cons act acts ih =>
    have hact := hacts act List.mem_cons_self
    exact ih (fun j => Sane.step hs hact j) (h.step hc hcfg hdistinct hl (hs i) hact)
      (truthful_step (hs i) ht hact) fun a ha => hacts a (List.mem_cons_of_mem _ ha)

/-- A sensor whose driver has reported: with nothing of it in the queue or in
the store, the record has the report once all messages have arrived. -/
theorem run_shows (hs : ∀ i, f.Sane cjson config i) {sensor : Sensor γ}
    {mirror : Mirror sensor.toInput δ} (h : Follows cjson config mirror f i)
    (ht : sensor.Truthful (f.stations i)) {acts : List (FleetAct ι)}
    (hacts : ∀ act ∈ acts, act.Admissible config loads)
    (hqueue : ∀ e ∈ ((f.run cjson config loads answers acts).stations i).eventQueue.items,
      e.sourceId ≠ sensor.source)
    (hstore : ∀ e ∈ ((f.run cjson config loads answers acts).stations
      i).application.offlineStore.events, e.sourceId ≠ sensor.source) {v : γ}
    (hv : sensor.reported? ((f.run cjson config loads answers acts).stations i) = some v) :
    mirror.field (config i).deviceId.text
      ((f.run cjson config loads answers acts).arrived config loads answers i) =
      mirror.convert v := by
  obtain ⟨hsane, ⟨events, honway, hlast⟩, htruthful⟩ :
      (f.run cjson config loads answers acts).Sane cjson config i ∧ _ ∧ _ :=
    run_follows hc hcfg hdistinct hl hs h ht hacts
  have haccepted := sensor.last_accepted hsane.healthy htruthful hc hsane.memory hqueue hstore hv
  have hall := mirror.onMessages_own answers
    (p := (f.run cjson config loads answers acts).platform cjson config i) hc hl (hcfg i)
    (f.run cjson config loads answers acts).middleware honway.sendable
  rw [← honway.payloads] at hall
  exact hall.trans (hlast v haccepted)

end Runs

end Fleet

/-! ## The result -/

/-- Nothing of a source waits on the station. -/
def Calm (s : Station) (source : UInt32) : Prop :=
  (∀ e ∈ s.eventQueue.items, e.sourceId ≠ source) ∧
    ∀ e ∈ s.application.offlineStore.events, e.sourceId ≠ source

/-- In every run from the start, an input of which nothing waits on the
station is shown as its driver last reported it. -/
theorem Fleet.start_shows {ι : Type} [DecidableEq ι] {cjson : CJson} (hc : cjson.Standard)
    {loads : Loads} (hl : loads.Standard) (answers : Nat → Bool) {config : ι → DeviceConfig}
    (hcfg : ∀ i, ValidConfig (config i))
    (hdistinct : ∀ i j, i ≠ j → (config i).deviceId.text ≠ (config j).deviceId.text)
    {env : ι → Nat → Answer} (henv : ∀ i k, (env i k).allocated = true)
    {r : ι → Station.Readings} (hr : ∀ i, (r i).Early) (middleware : Middleware)
    {acts : List (FleetAct ι)} (hacts : ∀ act ∈ acts, act.Admissible config loads) (i : ι)
    {γ δ : Type} (sensor : Sensor γ) (mirror : Mirror sensor.toInput δ) :
    let f := (Fleet.start env r middleware).run cjson config loads answers acts
    Calm (f.stations i) sensor.source → ∀ v, sensor.reported? (f.stations i) = some v →
      mirror.get ((f.arrived config loads answers i).adapter.record (config i).deviceId.text) =
        mirror.convert v := by
  intro f hcalm v hv
  exact Fleet.run_shows hc hcfg hdistinct hl (Fleet.start_sane henv hr middleware)
    (Fleet.start_follows env r middleware mirror i) (sensor.truthful_boot (r i)) hacts hcalm.1
    hcalm.2 hv

/-- In every run of a fleet, with stations restarting at any time and messages
of all stations and of others arriving in any order and repeatedly, every
station's record shows each input as the driver last reported it since the
station started, as soon as nothing of that input waits on the station and
what is on its way has arrived. The encoder last reported the count of the
last edge that found room in the queue, which is its count if no later edge
was refused. It does not matter what the record was before. -/
theorem fleet_converges {ι : Type} [DecidableEq ι] (cjson : CJson) (hc : cjson.Standard)
    (loads : Loads) (hl : loads.Standard) (answers : Nat → Bool) (config : ι → DeviceConfig)
    (hcfg : ∀ i, ValidConfig (config i))
    (hdistinct : ∀ i j, i ≠ j → (config i).deviceId.text ≠ (config j).deviceId.text)
    (env : ι → Nat → Answer) (henv : ∀ i k, (env i k).allocated = true)
    (r : ι → Station.Readings) (hr : ∀ i, (r i).Early) (middleware : Middleware)
    (acts : List (FleetAct ι)) (hacts : ∀ act ∈ acts, act.Admissible config loads) (i : ι) :
    let f := (Fleet.start env r middleware).run cjson config loads answers acts
    let s := f.stations i
    let record := (f.arrived config loads answers i).adapter.record (config i).deviceId.text
    (Calm s 1 → s.buttonInput.initialEventPending = false →
      record.buttonPressed = s.buttonInput.state) ∧
    (Calm s 2 → s.toggleInput.initialEventPending = false →
      record.taskDone = s.toggleInput.state) ∧
    (Calm s 3 → (∀ poll, s.lastReported = some poll → record.targetCount = poll.count.toInt) ∧
      ∀ poll, s.lastCounted = some poll → poll.room = true →
        record.targetCount = s.rotaryEncoder.count.toInt) ∧
    (Calm s 4 → s.analogInput.initialEventPending = false →
      record.progressPercent = s.analogInput.valuePercent.toInt) := by
  intro f s record
  have hshows : ∀ {γ δ : Type} (sensor : Sensor γ) (mirror : Mirror sensor.toInput δ),
      Calm s sensor.source → ∀ v, sensor.reported? s = some v →
      mirror.get record = mirror.convert v :=
    Fleet.start_shows hc hl answers hcfg hdistinct henv hr middleware hacts i
  refine ⟨fun hcalm hp => ?_, fun hcalm hp => ?_, fun hcalm => ⟨fun poll hpoll => ?_,
    fun poll hpoll hroom => ?_⟩, fun hcalm hp => ?_⟩
  · exact hshows .button .buttonPressed hcalm _ (DigitalInput.reported?_of hp)
  · exact hshows .toggle .taskDone hcalm _ (DigitalInput.reported?_of hp)
  · exact hshows .encoderCount .targetCount hcalm _ (by simp [Sensor.encoderCount, hpoll])
  · exact hshows .encoder .targetCount hcalm _ (by simp [Sensor.encoder, hpoll, hroom])
  · exact hshows .analog .progressPercent hcalm _ (by simp [Sensor.analog, hp])

/-- Two stations and their names. -/
def twoConfigs (second : Bool) : DeviceConfig where
  deviceId := bif second then CString.ofText "station_02" else defaultConfig.deviceId
  firmwareVersion := defaultConfig.firmwareVersion

def everOnline : Nat → Answer := fun _ => { connected := true, allocated := true, accepted := true }

/-- The slider of the second station is at its end when the power fails and
at half when it is back; its first message arrives late, the last one twice. -/
def powerFailure : List (FleetAct Bool) :=
  [.task true (.pollAnalog (some 4095)), .task true (.central 0),
   .restart true { rawValue := 2048 } everOnline 1,
   .task true (.pollAnalog (some 2048)), .task false (.pollAnalog (some 1000)),
   .task true (.central 0), .task false (.central 0), .deliver false 5 true, .deliver true 6 false,
   .deliver true 7 true]

theorem twoConfigs_valid : ∀ i, ValidConfig (twoConfigs i) := by
  intro i
  cases i <;> exact ⟨by decide, by decide⟩

theorem twoConfigs_distinct :
    ∀ i j, i ≠ j → (twoConfigs i).deviceId.text ≠ (twoConfigs j).deviceId.text := by decide

theorem readings_early (rawValue : Int32) :
    ({ rawValue := rawValue } : Station.Readings).Early := by
  have hzero : (0 : UInt64).toNat < 10 ^ 15 := by decide
  exact ⟨hzero, hzero⟩

theorem powerFailure_admissible :
    ∀ act ∈ powerFailure, act.Admissible twoConfigs Loads.reference := by
  simp only [powerFailure, List.forall_mem_cons, List.not_mem_nil, IsEmpty.forall_iff,
    implies_true, and_true]
  exact ⟨⟨trivial, trivial⟩, ⟨trivial, trivial⟩, ⟨readings_early 2048, fun _ => rfl⟩,
    ⟨trivial, trivial⟩, ⟨trivial, trivial⟩, ⟨trivial, trivial⟩, ⟨trivial, trivial⟩, trivial,
    trivial, trivial⟩

theorem fleet_converges_powerFailure :
    ((((Fleet.start (fun _ => everOnline) (fun _ : Bool => {}) {}).run CJson.reference twoConfigs
      Loads.reference (fun _ => true) powerFailure).arrived twoConfigs Loads.reference
      (fun _ => true) true).adapter.record
        (twoConfigs true).deviceId.text).progressPercent = 50 := by
  obtain ⟨-, -, -, hslider⟩ := fleet_converges CJson.reference CJson.reference_standard
    Loads.reference Loads.reference_standard (fun _ => true) twoConfigs twoConfigs_valid
    twoConfigs_distinct (fun _ => everOnline) (fun _ _ => rfl) (fun _ : Bool => {})
    (fun _ => readings_early 0) {} powerFailure powerFailure_admissible true
  refine (hslider ⟨?_, ?_⟩ ?_).trans ?_
  · decide +kernel
  · decide +kernel
  · decide +kernel
  · decide +kernel

end KaizenStation.EndToEnd
