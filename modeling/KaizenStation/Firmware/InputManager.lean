/-
KaizenStation.Firmware.InputManager — the input task of
`app/InputManager.cpp`.

`InputTask` is the running station with the place of its input task in the
loop of `run()`, so that the drivers are polled in the order of the source:
button, toggle, encoder, analog input, then the delay. The other tasks run in
between as they like.
-/
import KaizenStation.Firmware.Station

namespace KaizenStation.Firmware

/-- The statements of the loop in `InputManager::run`. -/
inductive PollPoint where
  | button
  | toggle
  | encoder
  | analog
  | delay
  deriving DecidableEq

def PollPoint.next : PollPoint → PollPoint
  | .button => .toggle
  | .toggle => .encoder
  | .encoder => .analog
  | .analog => .delay
  | .delay => .button

/-- What a poll reads: the level of its pin (of channel A), that of channel B,
the next reading of the clock and the sample of the converter. -/
structure PollReading where
  level : Nat := 1
  levelB : Nat := 1
  reading : UInt64 := 0
  sample : Option Int32 := none

/-- What the statement does to the station. -/
def PollPoint.act (r : PollReading) : PollPoint → Option Act
  | .button => some (.pollButton r.level r.reading)
  | .toggle => some (.pollToggle r.level r.reading)
  | .encoder => some (.pollEncoder r.level r.levelB)
  | .analog => some (.pollAnalog r.sample)
  | .delay => none

structure InputTask where
  station : Station
  pollPoint : PollPoint := .button

/-- One act of one of the tasks; the Wi-Fi and the MQTT task `post`. -/
inductive TaskAct where
  | wait (reading : UInt64)
  /-- The next statement of `InputManager::run`. -/
  | input (r : PollReading)
  | post (event : Event)
  | central (freeHeap : UInt32)

namespace InputTask

/-- The act on the station. -/
def act (pollPoint : PollPoint) : TaskAct → Option Act
  | .wait reading => some (.wait reading)
  | .input r => pollPoint.act r
  | .post event => some (.post event)
  | .central freeHeap => some (.central freeHeap)

def next (pollPoint : PollPoint) : TaskAct → PollPoint
  | .input _ => pollPoint.next
  | _ => pollPoint

variable (p : Platform)

def step (t : InputTask) (taskAct : TaskAct) : InputTask where
  station := match act t.pollPoint taskAct with
    | some act => t.station.step p act
    | none => t.station
  pollPoint := next t.pollPoint taskAct

def run (t : InputTask) (acts : List TaskAct) : InputTask := acts.foldl (step p) t

/-- The acts on the station, from a place in the loop. -/
def acts : PollPoint → List TaskAct → List Act
  | _, [] => []
  | pollPoint, taskAct :: rest =>
    (act pollPoint taskAct).toList ++ acts (next pollPoint taskAct) rest

/-- The place in the loop after these acts. -/
def place (pollPoint : PollPoint) (taskActs : List TaskAct) : PollPoint :=
  taskActs.foldl next pollPoint

/-- A run of the tasks is a run of the station. -/
theorem run_station (t : InputTask) (taskActs : List TaskAct) :
    (t.run p taskActs).station = t.station.run p (acts t.pollPoint taskActs) := by
  induction taskActs generalizing t with
  | nil => rfl
  | cons taskAct rest ih =>
    refine (ih (t.step p taskAct)).trans ?_
    show ((t.step p taskAct).station).run p (acts (next t.pollPoint taskAct) rest) = _
    rw [acts, step]
    cases act t.pollPoint taskAct <;> rfl

theorem acts_append (pollPoint : PollPoint) (before after : List TaskAct) :
    acts pollPoint (before ++ after) =
      acts pollPoint before ++ acts (place pollPoint before) after := by
  induction before generalizing pollPoint with
  | nil => rfl
  | cons taskAct rest ih =>
    rw [List.cons_append, acts, acts, ih, List.append_assoc]
    rfl

end InputTask

end KaizenStation.Firmware
