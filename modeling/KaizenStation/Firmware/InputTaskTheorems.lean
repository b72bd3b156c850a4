/-
KaizenStation.Firmware.InputTaskTheorems — the station settles with the loops
as they are written.

The input task polls its four drivers in turn, so five of its statements read
every input, wherever in the loop they begin (`reads_round`); the slider, if
the converter answers. With that the conditions of `Settling` are numbers of
statements of the two loops and a reading of the clock (`settles_in_rounds`).
-/
import KaizenStation.Firmware.InputManager
import KaizenStation.Firmware.SettlingTheorems

namespace KaizenStation.Firmware

open KaizenStation.Foundation

/-! ## Rounds -/

def TaskAct.isInput : TaskAct → Bool
  | .input _ => true
  | _ => false

def TaskAct.isCentral : TaskAct → Bool
  | .central _ => true
  | _ => false

def TaskAct.isPost : TaskAct → Bool
  | .post _ => true
  | _ => false

/-- The task reads what the inputs show, if it reads an input and gets a
sample from the converter. Any act that reads no input is allowed. -/
def TaskAct.Shows (floor : Floor) (pollPoint : PollPoint) : TaskAct → Prop
  | .wait _ => True
  | .input r =>
    match pollPoint with
    | .button => r.level = floor.buttonLevel
    | .toggle => r.level = floor.toggleLevel
    | .encoder => r.level = floor.levelA ∧ r.levelB = floor.levelB
    | .analog => ∀ rawValue ∈ r.sample, rawValue = floor.rawValue
    | .delay => True
  | .post _ => True
  | .central _ => True

/-- Only the Wi-Fi and the MQTT manager post, and the clock stays below
10^15 ms. -/
def TaskAct.Tame : TaskAct → Prop
  | .wait reading => reading.toNat < 10 ^ 15
  | .input r => r.reading.toNat < 10 ^ 15
  | .post event => event.Foreign ∧ Application.shouldPublish event = false
  | .central _ => True

/-- So does every act of the run, from this place in the loop. -/
def ShowsFrom (floor : Floor) : PollPoint → List TaskAct → Prop
  | _, [] => True
  | pollPoint, taskAct :: rest =>
    taskAct.Shows floor pollPoint ∧ ShowsFrom floor (InputTask.next pollPoint taskAct) rest

/-- The source that the statement reads; 0 for the delay. -/
def PollPoint.source : PollPoint → UInt32
  | .button => 1
  | .toggle => 2
  | .encoder => 3
  | .analog => 4
  | .delay => 0

def PollPoint.index : PollPoint → Nat
  | .button => 0
  | .toggle => 1
  | .encoder => 2
  | .analog => 3
  | .delay => 4

/-- The statements of the loop up to and with the one at `target`. -/
def PollPoint.upTo (pollPoint target : PollPoint) : Nat :=
  (target.index + 5 - pollPoint.index) % 5 + 1

theorem PollPoint.upTo_le (pollPoint target : PollPoint) : pollPoint.upTo target ≤ 5 := by
  cases pollPoint <;> cases target <;> decide

/-- A statement at another place brings the loop nearer. -/
theorem PollPoint.upTo_next {pollPoint target : PollPoint} (h : pollPoint ≠ target) :
    pollPoint.next.upTo target + 1 = pollPoint.upTo target := by
  cases pollPoint <;> cases target <;> first | rfl | exact absurd rfl h

namespace InputTask

variable {p : Platform} {floor : Floor}

theorem showsFrom_of_all {pollPoint : PollPoint} {taskActs : List TaskAct}
    (h : ∀ taskAct ∈ taskActs, ∀ pollPoint, taskAct.Shows floor pollPoint) :
    ShowsFrom floor pollPoint taskActs := by
  induction taskActs generalizing pollPoint with
  | nil => trivial
  | cons taskAct rest ih =>
    exact ⟨h taskAct List.mem_cons_self pollPoint, ih fun x hx => h x (List.mem_cons_of_mem _ hx)⟩

theorem act_shows {pollPoint : PollPoint} {taskAct : TaskAct} (h : taskAct.Shows floor pollPoint)
    (htame : taskAct.Tame) : ∀ a ∈ act pollPoint taskAct, a.Shows floor := by
  intro a ha
  cases taskAct with
  | wait reading =>
    cases ha
    trivial
  | post event =>
    cases ha
    exact htame
  | central freeHeap =>
    cases ha
    trivial
  | input r =>
    cases pollPoint with
    | delay => cases ha
    | _ =>
      cases ha
      exact h

theorem acts_show {pollPoint : PollPoint} {taskActs : List TaskAct}
    (h : ShowsFrom floor pollPoint taskActs) (htame : ∀ taskAct ∈ taskActs, taskAct.Tame) :
    ∀ act ∈ acts pollPoint taskActs, act.Shows floor := by
  induction taskActs generalizing pollPoint with
  | nil =>
    intro act hact
    cases hact
  | cons taskAct rest ih =>
    intro act hact
    rcases List.mem_append.mp hact with hact | hact
    · exact act_shows h.1 (htame _ List.mem_cons_self) act (Option.mem_toList.mp hact)
    · exact ih h.2 (fun x hx => htame x (List.mem_cons_of_mem _ hx)) act hact

theorem acts_tame {pollPoint : PollPoint} {taskActs : List TaskAct}
    (h : ∀ taskAct ∈ taskActs, taskAct.Tame) :
    ∀ act ∈ acts pollPoint taskActs, act.Quiet ∧ act.Early := by
  induction taskActs generalizing pollPoint with
  | nil =>
    intro act hact
    cases hact
  | cons taskAct rest ih =>
    intro a hact
    have hfirst := h taskAct List.mem_cons_self
    rcases List.mem_append.mp hact with hact | hact
    · have hact' : act pollPoint taskAct = some a := Option.mem_toList.mp hact
      cases taskAct with
      | input r =>
        cases pollPoint with
        | delay => cases hact'
        | button =>
          cases hact'
          exact ⟨trivial, hfirst⟩
        | toggle =>
          cases hact'
          exact ⟨trivial, hfirst⟩
        | _ =>
          cases hact'
          exact ⟨trivial, trivial⟩
      | wait reading =>
        cases hact'
        exact ⟨trivial, hfirst⟩
      | post event =>
        cases hact'
        exact ⟨hfirst, trivial⟩
      | central freeHeap =>
        cases hact'
        exact ⟨trivial, trivial⟩
    · exact ih (fun x hx => h x (List.mem_cons_of_mem taskAct hx)) a hact

/-- The statements of the central task are those of the run. -/
theorem acts_central (pollPoint : PollPoint) (taskActs : List TaskAct) :
    (acts pollPoint taskActs).countP Act.isCentral = taskActs.countP TaskAct.isCentral := by
  induction taskActs generalizing pollPoint with
  | nil => rfl
  | cons taskAct rest ih =>
    rw [acts, List.countP_append, ih, List.countP_cons]
    cases taskAct with
    | input r => cases pollPoint <;> simp [act, PollPoint.act, Act.isCentral, TaskAct.isCentral]
    | _ => simp [act, Act.isCentral, TaskAct.isCentral, Nat.add_comm]

/-- The posts are those of the run. -/
theorem acts_posts (pollPoint : PollPoint) (taskActs : List TaskAct) :
    (acts pollPoint taskActs).countP Act.isPost = taskActs.countP TaskAct.isPost := by
  induction taskActs generalizing pollPoint with
  | nil => rfl
  | cons taskAct rest ih =>
    rw [acts, List.countP_append, ih, List.countP_cons]
    cases taskAct with
    | input r => cases pollPoint <;> simp [act, PollPoint.act, Act.isPost, TaskAct.isPost]
    | _ => simp [act, Act.isPost, TaskAct.isPost, Nat.add_comm]

/-- A statement reads its source. -/
theorem reads_here {pollPoint : PollPoint} (r : PollReading) (hanalog : pollPoint ≠ .analog)
    (hdelay : pollPoint ≠ .delay) : ∃ a ∈ act pollPoint (.input r), a.reads = pollPoint.source := by
  cases pollPoint with
  | delay => exact absurd rfl hdelay
  | analog => exact absurd rfl hanalog
  | _ => exact ⟨_, rfl, rfl⟩

/-- Five statements of the input task read every input but the slider, which
they poll. -/
theorem reads_round {pollPoint target : PollPoint} {taskActs : List TaskAct}
    (hanalog : target ≠ .analog) (hdelay : target ≠ .delay)
    (hcount : pollPoint.upTo target ≤ taskActs.countP TaskAct.isInput) :
    Station.ReadsSource (acts pollPoint taskActs) target.source := by
  induction taskActs generalizing pollPoint with
  | nil =>
    simp [PollPoint.upTo] at hcount
  | cons taskAct rest ih =>
    rw [List.countP_cons] at hcount
    have hlater : ∀ {pollPoint' : PollPoint}, pollPoint' = next pollPoint taskAct →
        pollPoint'.upTo target ≤ rest.countP TaskAct.isInput →
        Station.ReadsSource (acts pollPoint (taskAct :: rest)) target.source := by
      rintro _ rfl hrest
      obtain ⟨act, hmem, hreads⟩ := ih hrest
      exact ⟨act, List.mem_append_right _ hmem, hreads⟩
    cases taskAct with
    | input r =>
      by_cases hhere : pollPoint = target
      · subst hhere
        obtain ⟨act, hact, hreads⟩ := reads_here r hanalog hdelay
        exact ⟨act, List.mem_append_left _ (Option.mem_toList.mpr hact), hreads⟩
      · have hnearer := PollPoint.upTo_next hhere
        simp only [TaskAct.isInput, if_true] at hcount
        exact hlater rfl (show pollPoint.next.upTo target ≤ _ by omega)
    | _ => exact hlater rfl (by simpa [TaskAct.isInput, next] using hcount)

theorem reads_sources {pollPoint : PollPoint} {taskActs : List TaskAct}
    (hcount : 5 ≤ taskActs.countP TaskAct.isInput) :
    ∀ source ∈ [1, 2, 3], Station.ReadsSource (acts pollPoint taskActs) source := by
  have hround : ∀ target : PollPoint, target ≠ .analog → target ≠ .delay →
      Station.ReadsSource (acts pollPoint taskActs) target.source :=
    fun target hanalog hdelay =>
      reads_round hanalog hdelay (Nat.le_trans (pollPoint.upTo_le target) hcount)
  simp only [List.forall_mem_cons, List.not_mem_nil, IsEmpty.forall_iff, implies_true, and_true]
  exact ⟨hround .button (by decide) (by decide), hround .toggle (by decide) (by decide),
    hround .encoder (by decide) (by decide)⟩

/-! ## The result -/

/-- The tasks when they start. -/
def boot (r : Station.Readings) : InputTask where
  station := Station.boot r

theorem Steady.settles (hc : p.cjson.Standard) {t : InputTask} (hs : t.station.Steady p)
    {drain look pause again finish : List TaskAct} {posts : Nat}
    (hshows : ShowsFrom floor t.pollPoint (drain ++ look ++ pause ++ again ++ finish))
    (htame : ∀ taskAct ∈ drain ++ look ++ pause ++ again ++ finish, taskAct.Tame)
    (hposts : (drain ++ look ++ pause ++ again ++ finish).countP TaskAct.isPost = posts)
    (hfew : posts ≤ Station.POSTS)
    (hdrain : Station.DRAIN + 3 * posts ≤ drain.countP TaskAct.isCentral)
    (hlook : 5 ≤ look.countP TaskAct.isInput)
    (hslider : Station.ReadsSource (acts (place t.pollPoint drain) look) 4)
    (hpause : (t.run p (drain ++ look)).station.nowMs.toNat + DIGITAL_DEBOUNCE_MS.toNat ≤
      (t.run p (drain ++ look ++ pause)).station.nowMs.toNat)
    (hagain : 5 ≤ again.countP TaskAct.isInput)
    (hfinish : Station.FINISH + 3 * posts ≤ finish.countP TaskAct.isCentral) :
    (t.run p (drain ++ look ++ pause ++ again ++ finish)).station.Settled floor
      (finish.countP TaskAct.isPost) := by
  have hsplit : ∀ before after, acts t.pollPoint (before ++ after) =
      acts t.pollPoint before ++ acts (place t.pollPoint before) after :=
    acts_append t.pollPoint
  have hacts := acts_show hshows htame
  have hearly : ∀ act ∈ acts t.pollPoint (drain ++ look ++ pause ++ again ++ finish), act.Early :=
    fun act hact => (acts_tame htame act hact).2
  rw [← acts_posts t.pollPoint] at hposts
  rw [run_station, run_station] at hpause
  rw [run_station, ← acts_posts (place t.pollPoint (drain ++ look ++ pause ++ again))]
  rw [hsplit, hsplit, hsplit, hsplit] at hacts hearly hposts ⊢
  rw [hsplit, hsplit, hsplit] at hpause
  refine Station.Settling.settled hc hs ⟨hacts, hposts ▸ hfew, ?_, ?_, hpause, ?_, ?_⟩ hearly
  · rw [acts_central, hposts]
    exact hdrain
  · intro source hsource
    rcases List.mem_append.mp (show source ∈ [1, 2, 3] ++ [4] from hsource) with hsource | hsource
    · exact reads_sources hlook source hsource
    · exact List.mem_singleton.mp hsource ▸ hslider
  · intro source hsource
    exact reads_sources hagain source (List.mem_append_left [3] hsource)
  · rw [acts_central, hposts]
    exact hfinish

/-- In every run of the two loops, whatever happened before: once the broker
serves and the inputs stand still, the station is settled after 110 statements
of the central task, five of the input task with an answer of the converter,
the debounce interval, five more of the input task and 14 of the central task.
In between the tasks may take any other steps, but what they post, up to 27
events, costs the central task three statements each before and after. -/
theorem settles_in_rounds (p : Platform) (hc : p.cjson.Standard) (r : Station.Readings)
    (hr : r.Early) (before drain look pause again finish : List TaskAct)
    (htame : ∀ taskAct ∈ before ++ (drain ++ look ++ pause ++ again ++ finish), taskAct.Tame)
    (floor : Floor) :
    let t := (boot r).run p before
    let posts := (drain ++ look ++ pause ++ again ++ finish).countP TaskAct.isPost
    (∀ k, t.station.application.calls ≤ k → (p.env k).Serves) →
    ShowsFrom floor t.pollPoint (drain ++ look ++ pause ++ again ++ finish) → posts ≤ 27 →
    110 + 3 * posts ≤ drain.countP TaskAct.isCentral → 5 ≤ look.countP TaskAct.isInput →
    Station.ReadsSource (acts (place t.pollPoint drain) look) 4 →
    (t.run p (drain ++ look)).station.nowMs.toNat + 30 ≤
      (t.run p (drain ++ look ++ pause)).station.nowMs.toNat →
    5 ≤ again.countP TaskAct.isInput → 14 + 3 * posts ≤ finish.countP TaskAct.isCentral →
      (t.run p (drain ++ look ++ pause ++ again ++ finish)).station.Settled floor
        (finish.countP TaskAct.isPost) := by
  intro t posts hserved hshows hfew hdrain hlook hslider hpause hagain hfinish
  have hbefore : ∀ act ∈ acts .button before, act.Quiet ∧ act.Early :=
    acts_tame fun taskAct hmem => htame taskAct (List.mem_append_left _ hmem)
  have hstation : t.station = (Station.boot r).run p (acts .button before) := run_station p _ before
  have hhealthy : t.station.Healthy p := by
    rw [hstation]
    exact foldl_keeps (fun s act hs hact => hs.step hact.1 hact.2) (Station.boot_healthy p hr)
      hbefore
  have hequipped : t.station.Equipped := by
    rw [hstation]
    exact foldl_keeps (fun s act hs _ => hs.step act) (Station.boot_equipped r true) hbefore
  exact Steady.settles hc ⟨hhealthy, hequipped, hserved⟩ hshows
    (fun taskAct hmem => htame taskAct (List.mem_append_right before hmem)) rfl hfew hdrain hlook
    hslider hpause hagain hfinish

/-- The slider stands in the middle. -/
def restReading : PollReading := { sample := some 2048 }

def restRun (inputs centrals : Nat) : List TaskAct :=
  List.replicate inputs (.input restReading) ++ List.replicate centrals (.central 0)

theorem mem_restRun {inputs centrals : Nat} {taskAct : TaskAct}
    (h : taskAct ∈ restRun inputs centrals) :
    taskAct.Tame ∧ ∀ pollPoint, taskAct.Shows { rawValue := 2048 } pollPoint := by
  have hzero : (0 : UInt64).toNat < 10 ^ 15 := by decide
  rcases List.mem_append.mp h with h | h
  · rw [List.eq_of_mem_replicate h]
    refine ⟨hzero, fun pollPoint => ?_⟩
    cases pollPoint with
    | analog => exact fun rawValue hsample => (Option.some.inj hsample).symm
    | encoder => exact ⟨rfl, rfl⟩
    | delay => trivial
    | _ => exact rfl
  · rw [List.eq_of_mem_replicate h]
    exact ⟨trivial, fun _ => trivial⟩

/-- A command arrives while the debounce interval passes. -/
def restPause : List TaskAct := [.post { type := .setOutput, value := 1 }, .wait 40]

def rest : List TaskAct :=
  restRun 0 113 ++ restRun 5 0 ++ restPause ++ restRun 5 0 ++ restRun 0 17

theorem mem_rest {taskAct : TaskAct} (h : taskAct ∈ rest) :
    taskAct.Tame ∧ ∀ pollPoint, taskAct.Shows { rawValue := 2048 } pollPoint := by
  have hforty : (40 : UInt64).toNat < 10 ^ 15 := by decide
  simp only [rest, List.mem_append] at h
  rcases h with (((h | h) | h) | h) | h
  · exact mem_restRun h
  · exact mem_restRun h
  · simp only [restPause, List.mem_cons, List.not_mem_nil, or_false] at h
    rcases h with rfl | rfl
    · exact ⟨⟨⟨rfl, rfl⟩, rfl⟩, fun _ => trivial⟩
    · exact ⟨hforty, fun _ => trivial⟩
  · exact mem_restRun h
  · exact mem_restRun h

theorem settles_in_rounds_rest :
    (((boot {}).run Platform.online (restRun 3 1)).run Platform.online rest).station.Settled
      { rawValue := 2048 } 0 := by
  have hzero : (0 : UInt64).toNat < 10 ^ 15 := by decide
  refine settles_in_rounds Platform.online CJson.reference_standard {} ⟨hzero, hzero⟩ (restRun 3 1)
    (restRun 0 113) (restRun 5 0) restPause (restRun 5 0) (restRun 0 17) ?_ { rawValue := 2048 }
    ?_ (showsFrom_of_all fun taskAct h => (mem_rest h).2) ?_ ?_ ?_ ?_ ?_ ?_ ?_
  · intro taskAct h
    rcases List.mem_append.mp h with h | h
    · exact (mem_restRun h).1
    · exact (mem_rest h).1
  · intro k _
    exact ⟨rfl, rfl, rfl⟩
  · decide
  · decide +kernel
  · decide
  · decide +kernel
  · decide +kernel
  · decide
  · decide

end InputTask

end KaizenStation.Firmware
