/-
KaizenStation.EndToEnd.Commands — the two command parsers.

The firmware looks the two names up by first match and counts the members,
the backend refuses repeated names and compares the set of names. Both accept
exactly the trees of `CommandTree`: the two members in either order, with a
value that means a Boolean (`backend_accepts_iff`, `firmware_accepts_iff`).
Where both readers decode a payload to one tree the parsers then accept the
same commands (`command_parsers_agree`).
-/
import Mathlib.Data.List.Basic
import Mathlib.Data.List.TakeWhile
import KaizenStation.Backend.ProtocolTheorems
import KaizenStation.Firmware.CommandParser

namespace KaizenStation.EndToEnd

open KaizenStation.Foundation KaizenStation.Firmware KaizenStation.Backend

/-- The trees of a command. -/
inductive CommandTree (command : Command) (on : Bool) : Json → Prop where
  | nameFirst {value : Json} : commandValue value = .ok on →
      CommandTree command on (.obj [("command", .str command.name), ("value", value)])
  | valueFirst {value : Json} : commandValue value = .ok on →
      CommandTree command on (.obj [("value", value), ("command", .str command.name)])

/-! ## The backend -/

theorem nodup_of_uniqueObject {pairs result data : List (String × Json)}
    (hresult : (result.map (·.1)).Nodup) (h : uniqueObject pairs result = .ok data) :
    ((result ++ pairs).map (·.1)).Nodup := by
  induction pairs generalizing result with
  | nil => simpa using hresult
  | cons pair rest ih =>
    obtain ⟨key, value⟩ := pair
    rw [uniqueObject] at h
    split at h
    · cases h
    · next hnone =>
      have hkey := List.lookup_eq_none_iff.mp (Option.not_isSome_iff_eq_none.mp hnone)
      have hnew : ((result ++ [(key, value)]).map (·.1)).Nodup := by
        rw [List.map_append, List.nodup_append]
        refine ⟨hresult, by simp, ?_⟩
        intro a ha b hb
        obtain ⟨p, hp, rfl⟩ := List.mem_map.mp ha
        have hne : b = key := by simpa using hb
        have := hkey p hp
        rw [hne]
        intro heq
        simp [heq] at this
      simpa using ih hnew h

theorem hooks_obj_nodup {data : List (String × Json)} (h : hooks (.obj data) = .ok ()) :
    (data.map (·.1)).Nodup := by
  rw [hooks] at h
  cases hm : memberHooks data with
  | error e =>
    rw [hm] at h
    cases h
  | ok _ =>
    cases hu : uniqueObject data with
    | error e =>
      rw [hm, hu] at h
      cases h
    | ok result => simpa using nodup_of_uniqueObject (by simp) hu

/-- Exactly the two fields, each once. -/
theorem two_members {data : List (String × Json)} (hnodup : (data.map (·.1)).Nodup)
    (hfields : hasFields data ["command", "value"] = true) :
    (∃ a b, data = [("command", a), ("value", b)]) ∨
      ∃ a b, data = [("value", b), ("command", a)] := by
  simp only [hasFields, Bool.and_eq_true, List.all_eq_true] at hfields
  obtain ⟨hnames, hfound⟩ := hfields
  have hname : ∀ m ∈ data, m.1 = "command" ∨ m.1 = "value" := by
    intro m hm
    simpa using hnames m hm
  have hcommand := hfound "command" (by simp)
  have hvalue := hfound "value" (by simp)
  rcases data with _ | ⟨⟨k, v⟩, _ | ⟨⟨k', v'⟩, _ | ⟨⟨k'', v''⟩, rest⟩⟩⟩
  · simp at hcommand
  · rcases hname (k, v) (by simp) with rfl | rfl
    · have : (("value" : String) == "command") = false := by decide
      simp [List.lookup_cons, this] at hvalue
    · have : (("command" : String) == "value") = false := by decide
      simp [List.lookup_cons, this] at hcommand
  · rcases hname (k, v) (by simp) with rfl | rfl <;>
      rcases hname (k', v') (by simp) with rfl | rfl
    · simp at hnodup
    · exact .inl ⟨v, v', rfl⟩
    · exact .inr ⟨v', v, rfl⟩
    · simp at hnodup
  · -- three names, two of which must be equal
    rcases hname (k, v) (by simp) with rfl | rfl <;>
      rcases hname (k', v') (by simp) with rfl | rfl <;>
        rcases hname (k'', v'') (by simp) with rfl | rfl <;> simp at hnodup

theorem commandName_ok {value : Json} {command : Command} :
    commandName value = .ok command ↔ value = .str command.name := by
  constructor
  · intro h
    cases value with
    | str name =>
      simp only [commandName] at h
      split at h
      · next heq =>
        cases h
        rw [heq]
      · split at h
        · next heq =>
          cases h
          rw [heq]
        · cases h
    | _ => cases h
  · rintro rfl
    cases command <;> rfl

/-- A value that means a Boolean passes both hooks. -/
theorem hooks_commandValue {value : Json} {on : Bool} (h : commandValue value = .ok on) :
    hooks value = .ok () := by
  cases value <;> first | rfl | cases h

theorem backend_accepts_iff {loads : Loads} {payload : Payload} {command : Command} {on : Bool} :
    Backend.parseCommand loads payload = .ok (command, on) ↔
      payload.len ≤ 512 ∧ ∃ tree, loads payload = some tree ∧ CommandTree command on tree := by
  rw [parseCommand_ok]
  constructor
  · rintro ⟨data, hdata, hfields, hname, hvalue⟩
    obtain ⟨hlen, hloads, hhooks⟩ := jsonObject_ok.mp hdata
    refine ⟨hlen, _, hloads, ?_⟩
    rcases two_members (hooks_obj_nodup hhooks) hfields with ⟨a, b, rfl⟩ | ⟨a, b, rfl⟩
    · obtain rfl : a = .str command.name := commandName_ok.mp hname
      exact .nameFirst hvalue
    · obtain rfl : a = .str command.name := commandName_ok.mp hname
      exact .valueFirst hvalue
  · rintro ⟨hlen, tree, hloads, htree⟩
    have hname : commandName (.str command.name) = .ok command := commandName_ok.mpr rfl
    cases htree with
    | nameFirst hv =>
      have hhooks : ∀ v, hooks v = .ok () →
          hooks (.obj [("command", .str command.name), ("value", v)]) = .ok () := by
        intro v h
        simp only [hooks, memberHooks, h]
        rfl
      have hdata := jsonObject_ok.mpr ⟨hlen, hloads, hhooks _ (hooks_commandValue hv)⟩
      exact ⟨_, hdata, by simp [hasFields], hname, hv⟩
    | valueFirst hv =>
      have hhooks : ∀ v, hooks v = .ok () →
          hooks (.obj [("value", v), ("command", .str command.name)]) = .ok () := by
        intro v h
        simp only [hooks, memberHooks, h]
        rfl
      have hdata := jsonObject_ok.mpr ⟨hlen, hloads, hhooks _ (hooks_commandValue hv)⟩
      exact ⟨_, hdata, by simp [hasFields, List.lookup_cons], hname, hv⟩

/-! ## The firmware -/

/-- The type of a command's event. -/
def commandType : Command → EventType
  | .setOutput => .setOutput
  | .setState => .remoteStateUpdate

/-- The event a command becomes on the station. -/
def commandEvent (command : Command) (on : Bool) (now : UInt64) : Event where
  type := commandType command
  value := if on then 1 else 0
  timestampMs := now

/-- No string of the tree has a U+0000. -/
def NulFree (tree : Json) : Prop := ∀ s ∈ tree.strings, ∀ c ∈ s.toList, c.toNat ≠ 0

def noNul (s : String) : Bool := s.toList.all (fun c => decide (c.toNat ≠ 0))

theorem noNul_iff {s : String} : noNul s = true ↔ ∀ c ∈ s.toList, c.toNat ≠ 0 := by
  simp [noNul]

instance (tree : Json) : Decidable (NulFree tree) :=
  decidable_of_iff (tree.strings.all noNul = true) (by simp [NulFree, noNul_iff])

/-- The two tests of a value are one. -/
theorem commandValue_ok {value : Json} {on : Bool} :
    commandValue value = .ok on ↔
      (CJson.isBool (some value) = true ∨ CJson.isNumberEq (some value) 0 = true ∨
        CJson.isNumberEq (some value) 1 = true) ∧
      (CJson.isTrue (some value) || CJson.isNumberEq (some value) 1) = on := by
  cases value with
  | bool b => cases b <;> simp [commandValue, CJson.isBool, CJson.isTrue, CJson.isNumberEq]
  | int n =>
    by_cases h0 : n = 0
    · subst h0
      cases on <;> simp [commandValue, CJson.isTrue, CJson.isNumberEq]
    · by_cases h1 : n = 1
      · subst h1
        cases on <;> simp [commandValue, CJson.isTrue, CJson.isNumberEq]
      · simp [commandValue, CJson.isBool, CJson.isNumberEq, h0, h1]
  | float x =>
    cases x with
    | none => simp [commandValue, CJson.isBool, CJson.isNumberEq]
    | some x =>
      by_cases h0 : x = 0
      · subst h0
        have hne : ((0 : Rat) == 1) = false := by decide
        cases on <;> simp [commandValue, CJson.isTrue, CJson.isNumberEq, hne]
      · by_cases h1 : x = 1
        · subst h1
          have hne : ((1 : Rat) != 0) = true := by decide
          cases on <;> simp [commandValue, CJson.isTrue, CJson.isNumberEq, hne]
        · simp [commandValue, CJson.isBool, CJson.isNumberEq, h0, h1]
  | _ => simp [commandValue, CJson.isBool, CJson.isNumberEq]

theorem cText_eq {s : String} (h : ∀ c ∈ s.toList, c.toNat ≠ 0) : CJson.cText s = s.toList := by
  refine List.takeWhile_eq_self_iff.mpr ?_
  intro c hc
  exact decide_eq_true (h c hc)

/-- Between texts without a NUL, `strcmp` is equality. -/
theorem strcmpEq_iff {a b : String} (ha : ∀ c ∈ a.toList, c.toNat ≠ 0)
    (hb : ∀ c ∈ b.toList, c.toNat ≠ 0) : CJson.strcmpEq a b = true ↔ a = b := by
  rw [CJson.strcmpEq, beq_iff_eq, cText_eq ha, cText_eq hb, String.toList_inj]

theorem commandType?_name (command : Command) :
    MessageSerializer.commandType? command.name = some (commandType command) := by
  cases command <;> decide

theorem commandType?_some {text : String} (h : ∀ c ∈ text.toList, c.toNat ≠ 0) {type : EventType}
    (ht : MessageSerializer.commandType? text = some type) :
    ∃ command : Command, text = command.name ∧ type = commandType command := by
  unfold MessageSerializer.commandType? at ht
  split at ht
  · next heq =>
    cases ht
    exact ⟨.setOutput, (strcmpEq_iff h (noNul_iff.mp (by decide))).mp heq, rfl⟩
  · split at ht
    · next heq =>
      cases ht
      exact ⟨.setState, (strcmpEq_iff h (noNul_iff.mp (by decide))).mp heq, rfl⟩
    · cases ht

section Firmware

variable {parse : CJsonParse} {now : UInt64} {payload : ByteArray} {outputEvent : Event}

/-- What the firmware tests before it reads the tree. -/
def Admissible (payload : ByteArray) : Prop :=
  0 < payload.size ∧ payload.size ≤ 512 ∧ MessageSerializer.containsNul payload = false

/-- A payload is refused, and the caller's event left as it was, or it is
the text of an object of two members that pass every test. -/
theorem parseCommand_cases (parse : CJsonParse) (now : UInt64) (payload : ByteArray)
    (outputEvent : Event) :
    MessageSerializer.parseCommand parse now payload outputEvent = (false, outputEvent) ∨
    ∃ root text value type, Admissible payload ∧ parse payload = some (.obj root) ∧
      CJson.getArraySize root = 2 ∧
      CJson.getObjectItem root "command" = some (.str text) ∧
      CJson.getObjectItem root "value" = some value ∧
      (CJson.isBool (some value) = true ∨ CJson.isNumberEq (some value) 0 = true ∨
        CJson.isNumberEq (some value) 1 = true) ∧
      MessageSerializer.commandType? text = some type ∧
      (MessageSerializer.parseCommand parse now payload outputEvent).1 = true := by
  by_cases hguard : payload.size = 0 ∨ payload.size > 512 ∨
      MessageSerializer.containsNul payload = true
  · exact .inl (if_pos hguard)
  · have ha : Admissible payload := by
      simp only [not_or, Bool.not_eq_true] at hguard
      exact ⟨by omega, by omega, hguard.2.2⟩
    unfold MessageSerializer.parseCommand
    rw [if_neg hguard]
    cases hp : parse payload with
    | none => exact .inl rfl
    | some tree =>
      cases tree with
      | obj root =>
        simp only
        split
        · exact .inl rfl
        · next text hstr =>
          split
          · exact .inl rfl
          · next htests =>
            split
            · exact .inl rfl
            · next type htype =>
              rw [not_or, not_not, not_not] at htests
              obtain ⟨hsize, htest⟩ := htests
              have hcommand : CJson.getObjectItem root "command" = some (.str text) := by
                cases hc : CJson.getObjectItem root "command" with
                | none => simp [hc, CJson.valuestring?] at hstr
                | some c => cases c <;> simp_all [CJson.valuestring?]
              cases hv : CJson.getObjectItem root "value" with
              | none => simp [hv, CJson.isBool, CJson.isNumberEq] at htest
              | some value =>
                rw [hv] at htest
                exact .inr
                  ⟨root, text, value, type, ha, rfl, hsize, hcommand, hv, htest, htype, rfl⟩
      | _ => exact .inl rfl

theorem parseCommand_tree {tree : Json} {command : Command} {on : Bool}
    (ha : Admissible payload) (hp : parse payload = some tree)
    (ht : CommandTree command on tree) :
    MessageSerializer.parseCommand parse now payload outputEvent =
      (true, commandEvent command on now) := by
  have hguard : ¬ (payload.size = 0 ∨ payload.size > 512 ∨
      MessageSerializer.containsNul payload = true) := by
    rintro (h | h | h)
    · exact absurd ha.1 (by omega)
    · exact absurd ha.2.1 (by omega)
    · rw [ha.2.2] at h
      cases h
  have hcc : CJson.strcmpEq "command" "command" = true := by decide
  have hvv : CJson.strcmpEq "value" "value" = true := by decide
  have hcv : CJson.strcmpEq "command" "value" = false := by decide
  have hvc : CJson.strcmpEq "value" "command" = false := by decide
  have htype := commandType?_name command
  unfold MessageSerializer.parseCommand
  rw [if_neg hguard]
  cases ht with
  | nameFirst hv =>
    obtain ⟨htest, hon⟩ := commandValue_ok.mp hv
    simp [hp, CJson.getObjectItem, CJson.valuestring?, CJson.getArraySize, hcc, hvv, hvc, htest,
      htype, hon, commandEvent]
  | valueFirst hv =>
    obtain ⟨htest, hon⟩ := commandValue_ok.mp hv
    simp [hp, CJson.getObjectItem, CJson.valuestring?, CJson.getArraySize, hcc, hvv, hcv, htest,
      htype, hon, commandEvent]

/-- An item that was found is a member of that name. -/
theorem mem_of_getObjectItem {root : List (String × Json)} {name : String} {value : Json}
    (hname : ∀ c ∈ name.toList, c.toNat ≠ 0) (hfree : NulFree (.obj root))
    (h : CJson.getObjectItem root name = some value) : (name, value) ∈ root := by
  obtain ⟨m, hfound, rfl⟩ := Option.map_eq_some_iff.mp h
  have hm := List.mem_of_find?_eq_some hfound
  have hstring : ∀ l : List (String × Json), m ∈ l → m.1 ∈ Json.memberStrings l := by
    intro l hl
    induction l with
    | nil => cases hl
    | cons x l ih =>
      rcases List.mem_cons.mp hl with rfl | hl
      · simp [Json.memberStrings]
      · simp [Json.memberStrings, ih hl]
  have heq : CJson.strcmpEq name m.1 = true := by
    have := List.find?_some hfound
    exact this
  rw [(strcmpEq_iff hname (hfree m.1 (hstring root hm))).mp heq]
  exact hm

/-- Two members of which one is found under each name. -/
theorem found_members {root : List (String × Json)} {text : String} {value : Json}
    (hfree : NulFree (.obj root)) (hsize : CJson.getArraySize root = 2)
    (hcommand : CJson.getObjectItem root "command" = some (.str text))
    (hvalue : CJson.getObjectItem root "value" = some value) :
    root = [("command", .str text), ("value", value)] ∨
      root = [("value", value), ("command", .str text)] := by
  have hc := mem_of_getObjectItem (noNul_iff.mp (by decide)) hfree hcommand
  have hv := mem_of_getObjectItem (noNul_iff.mp (by decide)) hfree hvalue
  obtain ⟨m, m', rfl⟩ := List.length_eq_two.mp hsize
  simp only [List.mem_cons, List.not_mem_nil, or_false] at hc hv
  rcases hc with rfl | rfl <;> rcases hv with hv | hv
  · simp at hv
  · subst hv
    exact .inl rfl
  · subst hv
    exact .inr rfl
  · simp at hv

theorem parseCommand_accepted
    (h : (MessageSerializer.parseCommand parse now payload outputEvent).1 = true)
    (hfree : ∀ tree, parse payload = some tree → NulFree tree) :
    Admissible payload ∧ ∃ tree command on, parse payload = some tree ∧
      CommandTree command on tree := by
  rcases parseCommand_cases parse now payload outputEvent with he |
    ⟨root, text, value, type, ha, hp, hsize, hcommand, hv, htest, htype, -⟩
  · rw [he] at h
    cases h
  · have hfree := hfree _ hp
    have hvalue := commandValue_ok.mpr ⟨htest, rfl⟩
    rcases found_members hfree hsize hcommand hv with rfl | rfl
    · obtain ⟨command, rfl, -⟩ := commandType?_some
        (hfree text (by simp [Json.strings, Json.memberStrings])) htype
      exact ⟨ha, _, command, _, hp, .nameFirst hvalue⟩
    · obtain ⟨command, rfl, -⟩ := commandType?_some
        (hfree text (by simp [Json.strings, Json.memberStrings])) htype
      exact ⟨ha, _, command, _, hp, .valueFirst hvalue⟩

end Firmware

/-! ## Agreement -/

/-- What is assumed of cJSON and of Python's `json`: a payload without a NUL,
raw or escaped, is decoded by both to one tree, except that only Python knows
the constants; U+0000 comes from a NUL in the text; and a text with one
decodes, if at all, to a tree in which a string shows it. -/
structure SameReaders (parse : CJsonParse) (loads : Loads) : Prop where
  sound : ∀ data tree, MessageSerializer.containsNul data = false → parse data = some tree →
    loads (.bytes data) = some tree
  complete : ∀ data tree, MessageSerializer.containsNul data = false →
    loads (.bytes data) = some tree → tree.constants = [] → parse data = some tree
  nonempty : loads (.bytes ByteArray.empty) = none
  nulFree : ∀ data tree, MessageSerializer.containsNul data = false →
    loads (.bytes data) = some tree → NulFree tree
  marked : ∀ data tree, MessageSerializer.containsNul data = true →
    loads (.bytes data) = some tree →
      ∃ s ∈ tree.strings, ∃ c ∈ s.toList, c.toNat = 0 ∨ c = '\\'

theorem commandValue_plain {value : Json} {on : Bool} (h : commandValue value = .ok on) :
    value.strings = [] ∧ value.constants = [] := by
  cases value with
  | null => cases h
  | bool _ => exact ⟨rfl, rfl⟩
  | int _ => exact ⟨rfl, rfl⟩
  | float _ => exact ⟨rfl, rfl⟩
  | constant _ => cases h
  | str _ => cases h
  | arr _ => cases h
  | obj _ => cases h

theorem CommandTree.constants {command : Command} {on : Bool} {tree : Json}
    (h : CommandTree command on tree) : tree.constants = [] := by
  cases h with
  | nameFirst hv => simp [Json.constants, Json.memberConstants, (commandValue_plain hv).2]
  | valueFirst hv => simp [Json.constants, Json.memberConstants, (commandValue_plain hv).2]

/-- The strings of a command are its names and its text. -/
theorem CommandTree.strings {command : Command} {on : Bool} {tree : Json}
    (h : CommandTree command on tree) :
    ∀ s ∈ tree.strings, s = "command" ∨ s = "value" ∨ s = command.name := by
  intro s hs
  cases h with
  | nameFirst hv =>
    simp [Json.strings, Json.memberStrings, (commandValue_plain hv).1] at hs
    rcases hs with rfl | rfl | rfl <;> simp
  | valueFirst hv =>
    simp [Json.strings, Json.memberStrings, (commandValue_plain hv).1] at hs
    rcases hs with rfl | rfl | rfl <;> simp

theorem CommandTree.unmarked {command : Command} {on : Bool} {tree : Json}
    (h : CommandTree command on tree) :
    ¬ ∃ s ∈ tree.strings, ∃ c ∈ s.toList, c.toNat = 0 ∨ c = '\\' := by
  rintro ⟨s, hs, c, hc, hmark⟩
  have hplain : s.toList.all (fun c => decide (c.toNat ≠ 0) && decide (c ≠ '\\')) = true := by
    rcases h.strings s hs with rfl | rfl | rfl
    · decide
    · decide
    · cases command <;> decide
  have hboth := List.all_eq_true.mp hplain c hc
  simp only [Bool.and_eq_true, decide_eq_true_eq] at hboth
  rcases hmark with hnul | hbackslash
  · exact hboth.1 hnul
  · exact hboth.2 hbackslash

/-- The firmware accepts exactly the payloads that the backend accepts, as
the same command, and touches the caller's event only then. -/
theorem command_parsers_agree (parse : CJsonParse) (loads : Loads) (h : SameReaders parse loads)
    (now : UInt64) (payload : ByteArray) (outputEvent : Event) :
    ((MessageSerializer.parseCommand parse now payload outputEvent).1 = true ↔
      ∃ accepted, Backend.parseCommand loads (.bytes payload) = .ok accepted) ∧
    (∀ command on, Backend.parseCommand loads (.bytes payload) = .ok (command, on) →
      MessageSerializer.parseCommand parse now payload outputEvent =
        (true, {
          type := match command with
            | .setOutput => .setOutput
            | .setState => .remoteStateUpdate
          sourceId := 0
          value := if on then 1 else 0
          timestampMs := now
          sequenceId := 0 })) ∧
    ((MessageSerializer.parseCommand parse now payload outputEvent).1 = false →
      (MessageSerializer.parseCommand parse now payload outputEvent).2 = outputEvent) := by
  have hforward : ∀ command on, Backend.parseCommand loads (.bytes payload) = .ok (command, on) →
      MessageSerializer.parseCommand parse now payload outputEvent =
        (true, commandEvent command on now) := by
    intro command on hok
    obtain ⟨hlen, tree, hloads, htree⟩ := backend_accepts_iff.mp hok
    have hnul : MessageSerializer.containsNul payload = false := by
      cases hc : MessageSerializer.containsNul payload with
      | false => rfl
      | true => exact absurd (h.marked payload tree hc hloads) htree.unmarked
    have hpos : 0 < payload.size := by
      rcases Nat.eq_zero_or_pos payload.size with h0 | h0
      · rw [ByteArray.size_eq_zero_iff.mp h0, h.nonempty] at hloads
        cases hloads
      · exact h0
    exact parseCommand_tree ⟨hpos, hlen, hnul⟩
      (h.complete payload tree hnul hloads htree.constants) htree
  refine ⟨⟨fun haccepted => ?_, ?_⟩, ?_, ?_⟩
  · -- what the firmware reads, the backend reads too
    have hloads : ∀ tree, MessageSerializer.containsNul payload = false →
        parse payload = some tree → loads (.bytes payload) = some tree :=
      fun tree hnul hp => h.sound payload tree hnul hp
    rcases parseCommand_cases parse now payload outputEvent with he | ⟨_, _, _, _, ha, -⟩
    · rw [he] at haccepted
      cases haccepted
    · obtain ⟨-, tree, command, on, hp, htree⟩ := parseCommand_accepted haccepted
        fun tree hp => h.nulFree payload tree ha.2.2 (hloads tree ha.2.2 hp)
      exact ⟨(command, on), backend_accepts_iff.mpr ⟨ha.2.1, tree, hloads tree ha.2.2 hp, htree⟩⟩
  · rintro ⟨⟨command, on⟩, hok⟩
    rw [hforward command on hok]
  · intro command on hok
    rw [hforward command on hok]
    cases command <;> rfl
  · intro hrefused
    rcases parseCommand_cases parse now payload outputEvent with he |
      ⟨_, _, _, _, _, _, _, _, _, _, _, htrue⟩
    · rw [he]
    · rw [htrue] at hrefused
      cases hrefused

/-! ## A reader -/

/-- The reader of the fragment, on texts and for trees without a NUL. -/
def plainReader (data : ByteArray) : Option Json :=
  if MessageSerializer.containsNul data then none
  else (Loads.reference (.bytes data)).filter fun tree => decide (NulFree tree)

/-- It as `json.loads`. -/
def plainLoads : Loads
  | .str text => plainReader text.toUTF8
  | .bytes data => plainReader data

theorem sameReaders_plain : SameReaders plainReader plainLoads where
  sound := fun _ _ _ h => h
  complete := fun _ _ _ h _ => h
  nonempty := by decide +kernel
  nulFree := by
    intro data tree hnul h
    have hread : (Loads.reference (.bytes data)).filter (fun tree => decide (NulFree tree)) =
        some tree := by
      simpa [plainLoads, plainReader, hnul] using h
    exact of_decide_eq_true (Option.filter_eq_some_iff.mp hread).2
  marked := by
    intro data tree hnul h
    simp [plainLoads, plainReader, hnul] at h

/-- A remote change, with the value in front and as a number. -/
def remoteChange : ByteArray := "\x7b\"value\":1,\"command\":\"set_state\"\x7d".toUTF8

theorem command_parsers_agree_remote :
    MessageSerializer.parseCommand plainReader 7 remoteChange {} =
      (true, { type := .remoteStateUpdate, value := 1, timestampMs := 7 }) := by
  have haccepted : Backend.parseCommand plainLoads (.bytes remoteChange) =
      .ok (.setState, true) := by
    have hread : (Backend.parseCommand plainLoads (.bytes remoteChange)).toOption =
        some (.setState, true) := by decide +kernel
    cases hc : Backend.parseCommand plainLoads (.bytes remoteChange) with
    | error e =>
      rw [hc] at hread
      cases hread
    | ok accepted =>
      rw [hc] at hread
      cases hread
      rfl
  exact (command_parsers_agree plainReader plainLoads sameReaders_plain 7 remoteChange {}).2.1
    .setState true haccepted

/-! ## Commands of the backend -/

/-- What the station relies on in cJSON: a compact object of strings without
a NUL, Booleans and integers that a double holds is decoded to its
members. -/
structure StandardParse (parse : CJsonParse) : Prop where
  decodes : ∀ members (text : String), Json.ObjectText members text.toList →
    NulFree (.obj members) → (∀ m ∈ members, ∀ n, m.2 = .int n → n.natAbs ≤ 2 ^ 53) →
    parse text.toUTF8 = some (.obj members)

theorem object_tree (command : Command) (on : Bool) :
    CommandTree command on (.obj (command.object on)) := .nameFirst rfl

theorem dumpsCommand_admissible (command : Command) (on : Bool) :
    Admissible (dumpsCommand command on).toUTF8 := by
  unfold Admissible
  cases command <;> cases on <;> decide +kernel

/-- The station reads every command of the backend. -/
theorem parseCommand_dumpsCommand {parse : CJsonParse} (hp : StandardParse parse)
    (command : Command) (on : Bool) (now : UInt64) (outputEvent : Event) :
    MessageSerializer.parseCommand parse now (dumpsCommand command on).toUTF8 outputEvent =
      (true, commandEvent command on now) := by
  have hfree : NulFree (.obj (command.object on)) := by
    cases command <;> cases on <;> decide
  have hint : ∀ m ∈ command.object on, ∀ n, m.2 = .int n → n.natAbs ≤ 2 ^ 53 := by
    simp [Command.object]
  exact parseCommand_tree (dumpsCommand_admissible command on)
    (hp.decodes _ _ (dumpsCommand_objectText command on) hfree hint)
    (object_tree command on)

/-- The reader of the fragment as cJSON's. -/
def referenceParse : CJsonParse := fun data => Loads.reference (.bytes data)

theorem referenceParse_standard : StandardParse referenceParse := by
  refine ⟨fun members text htext _ _ => ?_⟩
  have hread := Json.readObject_of_objectText htext
  show (String.fromUTF8? text.toUTF8).bind _ = _
  rw [fromUTF8?_toUTF8]
  simp [hread]

end KaizenStation.EndToEnd
