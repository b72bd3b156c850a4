/-
KaizenStation.EndToEnd.CommandDelivery — which messages become commands.

The client hands a message over in fragments. A fragment passes the length
and offset tests of `handleIncomingMessage` only if it is the whole message,
so a message in several fragments is never a command, whatever its fragments
look like (`whole_fresh_addressed`). Topics of different stations differ, so
a command of the backend reaches the station it was made for and no other.
-/
import KaizenStation.EndToEnd.Commands
import KaizenStation.Firmware.MqttManager

namespace KaizenStation.EndToEnd

open KaizenStation.Foundation KaizenStation.Firmware KaizenStation.Backend

/-! ## One data event -/

/-- What the tests of `handleIncomingMessage` let through: a whole, fresh
message of at most 512 bytes on the station's topic. -/
structure Passes (m : MqttManager) (message : MqttMessage) (data : ByteArray) : Prop where
  bytes : message.data = some data
  sized : 0 < data.size ∧ data.size ≤ 512
  first : message.currentDataOffset = 0
  whole : message.totalDataLen = data.size
  fresh : message.retain = false
  addressed : message.topic = some m.commandTopic.toUTF8

theorem commandTopic_nonempty (m : MqttManager) : m.commandTopic.toUTF8.size ≠ 0 := by
  intro h
  have hlen : m.commandTopic.toList.length ≤ m.commandTopic.toUTF8.size := by
    rw [size_toUTF8]
    exact Json.length_le_utf8Length _
  have hchars : "kaizen/stations".toList.length ≤ m.commandTopic.toList.length := by
    simp only [MqttManager.commandTopic, MQTT_BASE_TOPIC, String.toList_append, List.length_append]
    omega
  have : "kaizen/stations".toList.length = 15 := by decide
  omega

/-- The events that the handler of one data event adds to the queue it
finds. -/
def enqueued (parse : CJsonParse) (m : MqttManager) (eventQueue : EventQueue)
    (message : MqttMessage) (now : UInt64) : List Event :=
  (m.handleIncomingMessage parse eventQueue message now).items.drop eventQueue.items.length

section Message

variable {parse : CJsonParse} {m : MqttManager} {eventQueue : EventQueue} {message : MqttMessage}
  {now : UInt64}

theorem handleIncomingMessage_passes {data : ByteArray} (h : Passes m message data) :
    m.handleIncomingMessage parse eventQueue message now =
      if (MessageSerializer.parseCommand parse now data {}).1 then
        (eventQueue.send (MessageSerializer.parseCommand parse now data {}).2).1
      else eventQueue := by
  have htopic := commandTopic_nonempty m
  have hguard : ¬ (data.size = 0 ∨ data.size > 512 ∨ message.currentDataOffset ≠ 0 ∨
      message.totalDataLen ≠ data.size ∨ message.retain = true ∨
      m.commandTopic.toUTF8.size = 0 ∨
      m.commandTopic.toUTF8.data ≠ m.commandTopic.toUTF8.data) := by
    have h0 := h.sized
    simp only [h.first, h.whole, h.fresh, htopic, ne_eq, not_true_eq_false, or_false,
      Bool.false_eq_true]
    omega
  unfold MqttManager.handleIncomingMessage
  rw [h.bytes, h.addressed]
  simp only
  rw [if_neg hguard]
  cases (MessageSerializer.parseCommand parse now data {}).1 <;> rfl

theorem handleIncomingMessage_stops (h : ∀ data, ¬ Passes m message data) :
    m.handleIncomingMessage parse eventQueue message now = eventQueue := by
  unfold MqttManager.handleIncomingMessage
  split
  · next data topic hdata htopic =>
    refine if_pos ?_
    by_contra hguard
    simp only [not_or, not_not, Bool.not_eq_true] at hguard
    obtain ⟨h0, h1, h2, h3, h4, -, h6⟩ := hguard
    refine h data ⟨hdata, ⟨by omega, by omega⟩, h2, h3, h4, ?_⟩
    rw [htopic, ByteArray.ext h6]
  · rfl

/-- The handler adds the command that the message is, if it passes, parses
and finds room. -/
theorem handleIncomingMessage_adds {data : ByteArray} (h : Passes m message data) :
    (m.handleIncomingMessage parse eventQueue message now).items = eventQueue.items ++
      if (MessageSerializer.parseCommand parse now data {}).1 = true ∧
          eventQueue.items.length < eventQueue.capacity then
        [(MessageSerializer.parseCommand parse now data {}).2]
      else [] := by
  rw [handleIncomingMessage_passes h]
  cases (MessageSerializer.parseCommand parse now data {}).1 with
  | false => simp
  | true => simp [EventQueue.send_items]

theorem enqueued_passes {data : ByteArray} (h : Passes m message data) :
    enqueued parse m eventQueue message now =
      if (MessageSerializer.parseCommand parse now data {}).1 = true ∧
          eventQueue.items.length < eventQueue.capacity then
        [(MessageSerializer.parseCommand parse now data {}).2]
      else [] := by
  rw [enqueued, handleIncomingMessage_adds h, List.drop_left]

theorem enqueued_stops (h : ∀ data, ¬ Passes m message data) :
    enqueued parse m eventQueue message now = [] := by
  rw [enqueued, handleIncomingMessage_stops h, List.drop_length]

/-- The handler only adds. -/
theorem handleIncomingMessage_items :
    (m.handleIncomingMessage parse eventQueue message now).items =
      eventQueue.items ++ enqueued parse m eventQueue message now := by
  by_cases h : ∃ data, Passes m message data
  · obtain ⟨data, hpass⟩ := h
    rw [enqueued_passes hpass, handleIncomingMessage_adds hpass]
  · have hstop : ∀ data, ¬ Passes m message data := fun data hpass => h ⟨data, hpass⟩
    rw [enqueued_stops hstop, handleIncomingMessage_stops hstop, List.append_nil]

end Message

/-! ## Fragments -/

/-- The data events of one message that is delivered in these pieces, from
the given offset on. The topic comes with the first of them or with all. -/
def fragments (topic : ByteArray) (onAll retain : Bool) (total : Nat) :
    Nat → List ByteArray → List MqttMessage
  | _, [] => []
  | offset, piece :: pieces =>
    { topic := if onAll || offset == 0 then some topic else none
      data := some piece
      currentDataOffset := offset
      totalDataLen := total
      retain := retain } :: fragments topic onAll retain total (offset + piece.size) pieces

/-- The bytes of the pieces. -/
def joined (pieces : List ByteArray) : ByteArray := pieces.foldr (· ++ ·) ByteArray.empty

theorem joined_size (pieces : List ByteArray) :
    (joined pieces).size = (pieces.map ByteArray.size).sum := by
  induction pieces with
  | nil => rfl
  | cons piece pieces ih =>
    show (piece ++ joined pieces).size = _
    rw [ByteArray.size_append, ih]
    simp

/-- After the first piece nothing passes. -/
theorem fragments_later {m : MqttManager} {topic : ByteArray} {onAll retain : Bool} {total : Nat} :
    ∀ {offset : Nat} {pieces : List ByteArray}, 0 < offset →
      ∀ message ∈ fragments topic onAll retain total offset pieces,
        ∀ data, ¬ Passes m message data := by
  intro offset pieces
  induction pieces generalizing offset with
  | nil =>
    intro _ message hm
    cases hm
  | cons piece pieces ih =>
    intro hpos message hm data hpass
    rcases List.mem_cons.mp hm with rfl | hm
    · have hfirst := hpass.first
      simp only [Int.natCast_eq_zero] at hfirst
      omega
    · exact ih (by omega) message hm data hpass

/-- The events that the fragments add; `queueAt` and `nowAt` are the queue
and the clock as each of them finds them. -/
def enqueuedAll (parse : CJsonParse) (m : MqttManager) (queueAt : Nat → EventQueue)
    (nowAt : Nat → UInt64) : Nat → List MqttMessage → List Event
  | _, [] => []
  | k, message :: messages =>
    enqueued parse m (queueAt k) message (nowAt k) ++
      enqueuedAll parse m queueAt nowAt (k + 1) messages

theorem enqueuedAll_stops {parse : CJsonParse} {m : MqttManager} {queueAt : Nat → EventQueue}
    {nowAt : Nat → UInt64} {messages : List MqttMessage}
    (h : ∀ message ∈ messages, ∀ data, ¬ Passes m message data) (k : Nat) :
    enqueuedAll parse m queueAt nowAt k messages = [] := by
  induction messages generalizing k with
  | nil => rfl
  | cons message messages ih =>
    rw [enqueuedAll, enqueued_stops (h message List.mem_cons_self),
      ih fun x hx => h x (List.mem_cons_of_mem _ hx)]
    rfl

/-- A first piece that is followed by another is not the whole message. -/
theorem fragments_several {m : MqttManager} {topic : ByteArray} {onAll retain : Bool}
    {piece next : ByteArray} {pieces : List ByteArray} (hpiece : 0 < piece.size)
    (hnext : 0 < next.size) :
    ∀ message ∈ fragments topic onAll retain (joined (piece :: next :: pieces)).size 0
        (piece :: next :: pieces), ∀ data, ¬ Passes m message data := by
  intro message hm data hpass
  have hsize := joined_size (piece :: next :: pieces)
  simp only [List.map_cons, List.sum_cons] at hsize
  rcases List.mem_cons.mp hm with rfl | hm
  · have hwhole := hpass.whole
    obtain rfl : piece = data := Option.some.inj hpass.bytes
    simp only [Nat.cast_inj] at hwhole
    omega
  · exact fragments_later (by omega) message hm data hpass

/-- A single piece passes if the message is small, fresh and addressed. -/
theorem fragments_single (m : MqttManager) (topic : ByteArray) (onAll retain : Bool)
    {payload : ByteArray} (hpos : 0 < payload.size) :
    fragments topic onAll retain payload.size 0 [payload] =
      [{ topic := some topic, data := some payload, currentDataOffset := 0,
         totalDataLen := payload.size, retain := retain }] ∧
    ∀ message ∈ fragments topic onAll retain payload.size 0 [payload], ∀ data,
      Passes m message data ↔ data = payload ∧ payload.size ≤ 512 ∧ retain = false ∧
        topic = m.commandTopic.toUTF8 := by
  have hone : fragments topic onAll retain payload.size 0 [payload] =
      [{ topic := some topic, data := some payload, currentDataOffset := 0,
         totalDataLen := payload.size, retain := retain }] := by
    simp [fragments]
  refine ⟨hone, ?_⟩
  rw [hone]
  intro message hm data
  obtain rfl := List.mem_singleton.mp hm
  constructor
  · intro h
    obtain rfl : payload = data := Option.some.inj h.bytes
    exact ⟨rfl, h.sized.2, h.fresh, Option.some.inj h.addressed⟩
  · rintro ⟨rfl, hsmall, hfresh, htopic⟩
    exact ⟨rfl, ⟨hpos, hsmall⟩, rfl, rfl, hfresh, congrArg some htopic⟩

/-! ## Topics -/

/-- Both sides build the same topic. -/
theorem commandTopic_eq (m : MqttManager) : m.commandTopic = commandTopicOf m.deviceId.text := rfl

/-- A publication that is delivered in one piece and not retained. -/
def delivered (publication : Publication) : MqttMessage where
  topic := some publication.1.toUTF8
  data := some publication.2.toUTF8
  currentDataOffset := 0
  totalDataLen := publication.2.toUTF8.size
  retain := false

/-- Of the backend's commands a station gets those made for it. -/
theorem enqueued_delivered {loads : Loads} (hl : loads.Standard) {parse : CJsonParse}
    (hp : StandardParse parse) (m : MqttManager) {station : String}
    (hs : isDeviceId station = true) {command : Command} {on : Bool} {publication : Publication}
    (hmade : makeCommand loads station on command = .ok publication) {eventQueue : EventQueue}
    (hroom : eventQueue.items.length < eventQueue.capacity) (now : UInt64) :
    enqueued parse m eventQueue (delivered publication) now =
      if station = m.deviceId.text then [commandEvent command on now] else [] := by
  rw [makeCommand_valid hl hs on command] at hmade
  cases hmade
  have hparse := parseCommand_dumpsCommand hp command on now {}
  have ha := dumpsCommand_admissible command on
  by_cases heq : station = m.deviceId.text
  · have hpass : Passes m (delivered (commandTopicOf station, dumpsCommand command on))
        (dumpsCommand command on).toUTF8 :=
      ⟨rfl, ⟨ha.1, ha.2.1⟩, rfl, rfl, rfl, by rw [commandTopic_eq, ← heq]; rfl⟩
    rw [enqueued_passes hpass, hparse, if_pos ⟨rfl, hroom⟩, if_pos heq]
  · rw [if_neg heq]
    refine enqueued_stops fun data hpass => heq ?_
    have htopic := Option.some.inj hpass.addressed
    rw [commandTopic_eq] at htopic
    exact commandTopicOf_inj (String.toByteArray_inj.mp htopic)

/-! ## The result -/

/-- However a message is delivered, it becomes at most one command, and
becomes one exactly if it is delivered whole, is small, fresh and addressed
to this station, parses, and finds room. A command made for one station is a
command at this station exactly if it is this one's. -/
theorem whole_fresh_addressed (parse : CJsonParse) (m : MqttManager) (queueAt : Nat → EventQueue)
    (nowAt : Nat → UInt64) :
    (∀ k message, (m.handleIncomingMessage parse (queueAt k) message (nowAt k)).items =
      (queueAt k).items ++ enqueued parse m (queueAt k) message (nowAt k)) ∧
    (∀ (topic payload : ByteArray) (onAll retain : Bool) (pieces : List ByteArray),
      1 ≤ payload.size → (∀ piece ∈ pieces, 0 < piece.size) → joined pieces = payload →
        (enqueuedAll parse m queueAt nowAt 0
          (fragments topic onAll retain payload.size 0 pieces)).length ≤ 1 ∧
        ((enqueuedAll parse m queueAt nowAt 0
            (fragments topic onAll retain payload.size 0 pieces)).length = 1 ↔
          pieces = [payload] ∧ payload.size ≤ 512 ∧ retain = false ∧
            topic = m.commandTopic.toUTF8 ∧
            (MessageSerializer.parseCommand parse (nowAt 0) payload {}).1 = true ∧
            (queueAt 0).items.length < (queueAt 0).capacity)) ∧
    (∀ loads : Loads, loads.Standard → StandardParse parse →
      ∀ (station : String) (command : Command) (on : Bool) (publication : Publication),
        isDeviceId station = true → makeCommand loads station on command = .ok publication →
        (queueAt 0).items.length < (queueAt 0).capacity →
          (enqueued parse m (queueAt 0) (delivered publication) (nowAt 0) =
            [commandEvent command on (nowAt 0)] ↔ station = m.deviceId.text)) := by
  refine ⟨?_, ?_, ?_⟩
  · intro k message
    exact handleIncomingMessage_items
  · intro topic payload onAll retain pieces hpos hnonempty hjoined
    match pieces with
    | [] =>
      rw [← hjoined] at hpos
      exact absurd hpos (by decide)
    | piece :: next :: pieces =>
      have hstop : ∀ message ∈
          fragments topic onAll retain payload.size 0 (piece :: next :: pieces),
          ∀ data, ¬ Passes m message data := by
        rw [← hjoined]
        exact fragments_several (hnonempty piece (by simp)) (hnonempty next (by simp))
      rw [enqueuedAll_stops hstop]
      simp
    | [piece] =>
      obtain rfl : piece = payload := by rw [← hjoined]; simp [joined]
      obtain ⟨hone, hpasses⟩ := fragments_single m topic onAll retain hpos
      rw [hone] at hpasses ⊢
      simp only [enqueuedAll, List.append_nil]
      by_cases hcond : piece.size ≤ 512 ∧ retain = false ∧ topic = m.commandTopic.toUTF8
      · have hpass := (hpasses _ (List.mem_singleton.mpr rfl) piece).mpr ⟨rfl, hcond⟩
        rw [enqueued_passes hpass]
        split
        · next h => simp [hcond, h]
        · next h =>
          simp only [List.length_nil, Nat.zero_le, true_and]
          refine iff_of_false (by decide) ?_
          rintro ⟨-, -, -, hparsed, hroom⟩
          exact h ⟨hparsed, hroom⟩
      · have hstop : ∀ data, ¬ Passes m _ data := fun data hpass =>
          hcond ((hpasses _ (List.mem_singleton.mpr rfl) data).mp hpass).2
        rw [enqueued_stops hstop]
        refine ⟨Nat.zero_le _, iff_of_false (by decide) ?_⟩
        rintro ⟨-, h1, h2, h3, -⟩
        exact hcond ⟨h1, h2, h3⟩
  · intro loads hl hp station command on publication hs hmade hroom
    rw [enqueued_delivered hl hp m hs hmade hroom]
    by_cases heq : station = m.deviceId.text
    · simp [heq]
    · simp [heq]

/-- The station of the default configuration. -/
def station01 : MqttManager where
  deviceId := defaultConfig.deviceId

/-- The command to switch its output on is a command for it, and is enqueued
when it comes in one piece. -/
theorem whole_fresh_addressed_station01 :
    enqueued referenceParse station01 (EventQueue.create 32)
        (delivered (commandTopicOf "station_01", dumpsCommand .setOutput true)) 9 =
      [commandEvent .setOutput true 9] ∧
    (enqueuedAll referenceParse station01 (fun _ => EventQueue.create 32) (fun _ => 9) 0
      (fragments (commandTopicOf "station_01").toUTF8 false false
        (dumpsCommand .setOutput true).toUTF8.size 0
        [(dumpsCommand .setOutput true).toUTF8])).length = 1 := by
  obtain ⟨-, hfragments, hcommand⟩ := whole_fresh_addressed referenceParse station01
    (fun _ => EventQueue.create 32) (fun _ => 9)
  have ha := dumpsCommand_admissible .setOutput true
  constructor
  · exact (hcommand Loads.reference Loads.reference_standard referenceParse_standard "station_01"
      .setOutput true _ (by decide) (makeCommand_valid Loads.reference_standard (by decide) _ _)
      (by decide)).mpr rfl
  · refine (hfragments _ _ false false _ ha.1 ?_ ?_).2.mpr
      ⟨rfl, ha.2.1, rfl, rfl, ?_, by decide⟩
    · intro piece hpiece
      rw [List.mem_singleton.mp hpiece]
      exact ha.1
    · simp [joined]
    · rw [parseCommand_dumpsCommand referenceParse_standard]

end KaizenStation.EndToEnd
