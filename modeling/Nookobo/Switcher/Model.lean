import Nookobo.Semantics.Run
import Nookobo.Switcher.Dialog

/-!
# The app switcher: its loop and its exits

`app-switcher` stops the active application, draws its dialog and waits for a touch or
a signal. The loop is cut into the steps between which the outside can act: the test of
`g_running`, the return of `select`, each record read from the touch device. What the
outside says there, the music player's report included, is part of the label. When the
loop ends, the branch for the chosen action runs as a whole.
-/

namespace Nookobo.Switcher

open Nookobo.Semantics Nookobo.Text Nookobo.Shim

/-! ## Commands -/

/-- The process names `killall` is given. -/
inductive Process where
  | luajit
  | ld219
  | plato
  | netsurfFb
deriving DecidableEq, Repr

/-- The signals of `killall`. -/
inductive Signal where
  | stop
  | cont
  | kill
deriving DecidableEq, Repr

/-- A command handed to the shell. -/
inductive Command where
  | killall (signal : Signal) (process : Process)
  | audioPrev
  | audioPause
  | audioNext
  | audioShuffle
  | toggleFrontlight
  | startBrowser
deriving DecidableEq, Repr

/-- The processes `suspend_active_app` and `resume_active_app` name. -/
def processesOf (activeApp : List UInt8) : List Process :=
  if activeApp = App.koreader.name then [.luajit]
  else if activeApp = App.plato.name then [.ld219, .plato]
  else if activeApp = App.netsurf.name then [.netsurfFb]
  else []

/-- `suspend_active_app`. -/
def suspendActiveApp (activeApp : List UInt8) : List Command :=
  (processesOf activeApp).map (.killall .stop)

/-- `resume_active_app`. -/
def resumeActiveApp (activeApp : List UInt8) : List Command :=
  (processesOf activeApp).map (.killall .cont)

/-! ## State -/

/-- A record of the touch device without its time. -/
structure InputEvent where
  type : UInt16
  code : UInt16
  value : Int32
deriving DecidableEq, Repr

/-- Where the loop stands. -/
inductive Position where
  /-- About to test `g_running`. -/
  | loopHead
  | selecting
  /-- In the loop that reads the touch device. -/
  | reading
  | done
deriving DecidableEq, Repr

/-- The variables of the program, with the screen, the files and the commands it has run. -/
structure State where
  activeApp : List UInt8
  files : AppFiles
  frame : Frame UInt16
  /-- `backup_mem`, by the pixel it belongs to. -/
  backup : Option (Frame UInt16)
  touchOpened : Bool := true
  labels : Labels := {}
  lastRawX : Int32 := -1
  lastRawY : Int32 := -1
  isContactDown : Bool := false
  wasContactDown : Bool := false
  /-- `active_pressed_btn`. -/
  pressed : Option ButtonId := none
  /-- `chosen_action`. -/
  chosen : Option ButtonId := none
  /-- `g_running`. -/
  running : Bool := true
  position : Position := .loopHead
  commands : List Command := []

namespace State

/-- A layer drawn on the screen. -/
def draw (layer : Layer UInt16) (state : State) : State :=
  { state with frame := state.frame.overlay layer }

/-- Commands run. -/
def system (commands : List Command) (state : State) : State :=
  { state with commands := state.commands ++ commands }

/-! ## Touch frames -/

/-- `screen_x`: the panel is mounted rotated. -/
def screenX (state : State) : Int :=
  min (max (1403 - state.lastRawY.toInt) 0) (panelWidth - 1)

/-- `screen_y`. -/
def screenY (state : State) : Int := min (max state.lastRawX.toInt 0) (panelHeight - 1)

/-- Both coordinates have been reported. -/
def located (state : State) : Bool := decide (0 ≤ state.lastRawX ∧ 0 ≤ state.lastRawY)

/-- The button under a point, with the margin that is granted around it. -/
def buttonAt (labels : Labels) (x y : Int) : Option ButtonId :=
  buttonIds.find? fun id =>
    let button := button labels id
    decide (button.x - 35 ≤ x ∧ x ≤ button.x + button.w + 35 ∧ button.y - 15 ≤ y ∧
      y ≤ button.y + button.h + 15)

/-- The point lies more than 20 pixels outside the dialog. -/
def outsideDialog (x y : Int) : Bool :=
  decide (x < dlgX - 20 ∨ x > dlgX + dlgW + 20 ∨ y < dlgY - 20 ∨ y > dlgY + dlgH + 20)

variable (font : Font)

/-- `draw_button`: the button drawn and refreshed. -/
def drawButton (id : ButtonId) (pressed : Bool) (state : State) : State :=
  state.draw (drawButtonWidget font state.activeApp (button state.labels id) pressed)

/-- `draw_music_section`, with what the music player reports. -/
def showMusic (report : List (List UInt8)) (state : State) : State :=
  { state with labels := labelsFor (queryMusicStatus report) }.draw
    (drawMusicSection font state.activeApp (queryMusicStatus report))

/-- The square that answers a touch. -/
def indicator (state : State) : Layer UInt16 :=
  drawRect (state.screenX - 6) (state.screenY - 6) 12 12 colorBlack

/-- The finger comes down. -/
def handlePress (state : State) : State :=
  let state := { state with wasContactDown := true }
  if state.located then
    let state := state.draw state.indicator
    match buttonAt state.labels state.screenX state.screenY with
    | some id => { state with pressed := some id }.drawButton font id true
    | none => { state with pressed := none }
  else state

/-- The `switch` over the button a release selects. -/
def act (report : List (List UInt8)) (id : ButtonId) (state : State) : State :=
  match id with
  | .musicPrev => (state.system [.audioPrev]).showMusic font report
  | .musicPlay => (state.system [.audioPause]).showMusic font report
  | .musicNext => (state.system [.audioNext]).showMusic font report
  | .musicShuffle => (state.system [.audioShuffle]).showMusic font report
  | .frontlight => state.system [.toggleFrontlight]
  | .koreader | .plato | .netsurf | .close =>
      { state with chosen := some id, running := false }

/-- The button a release selects: the one that was pressed, or the one under the
finger. -/
def target (state : State) : Option ButtonId :=
  state.pressed.or (buttonAt state.labels state.screenX state.screenY)

/-- The button that was pressed is drawn as released again. -/
def unhighlight (state : State) : State :=
  match state.pressed with
  | some id => state.drawButton font id false
  | none => state

/-- The finger lifts. A release that ends the program also leaves the loop over the
records. -/
def handleRelease (report : List (List UInt8)) (state : State) : State :=
  let state := { state with wasContactDown := false }
  if state.located then
    let drawn := state.unhighlight font
    if outsideDialog state.screenX state.screenY then
      { drawn with chosen := some .close, running := false, position := .loopHead }
    else
      let acted :=
        match state.target with
        | some id => drawn.act font report id
        | none => drawn
      let released := { acted with pressed := none }
      if released.running then released else { released with position := .loopHead }
  else state

/-- `SYN_REPORT`. -/
def handleFrame (report : List (List UInt8)) (state : State) : State :=
  if !state.wasContactDown && state.isContactDown then state.handlePress font
  else if state.wasContactDown && !state.isContactDown then state.handleRelease font report
  else state

/-- One record of the touch device. -/
def handleEvent (event : InputEvent) (report : List (List UInt8)) (state : State) : State :=
  if event.type = 3 then
    if event.code = 53 ∨ event.code = 0 then { state with lastRawX := event.value }
    else if event.code = 54 ∨ event.code = 1 then { state with lastRawY := event.value }
    else if event.code = 57 then
      if event.value = -1 then { state with isContactDown := false }
      else if 0 ≤ event.value then { state with isContactDown := true }
      else state
    else state
  else if event.type = 1 ∧ event.code = 330 then
    { state with isContactDown := event.value != 0 }
  else if event.type = 0 ∧ event.code = 0 then state.handleFrame font report
  else state

/-! ### Reports -/

/-- A report handles the frame gathered before it. -/
theorem handleEvent_of_report {event : InputEvent} (reports : event.type = 0 ∧ event.code = 0)
    (report : List (List UInt8)) (state : State) :
    state.handleEvent font event report = state.handleFrame font report := by
  obtain ⟨type, code⟩ := reports
  unfold handleEvent
  rw [type, code]
  rfl

/-- The end of a release: a program that is to end leaves the loop over the records. -/
def released (acted : State) : State :=
  if acted.running then { acted with pressed := none }
  else { acted with pressed := none, position := .loopHead }

variable {state : State}

/-- A press at an unknown point only notes the contact. -/
theorem handlePress_of_nowhere (nowhere : state.located = false) :
    state.handlePress font = { state with wasContactDown := true } := by
  have here : State.located { state with wasContactDown := true } = false := nowhere
  unfold handlePress
  dsimp only
  rw [here]
  rfl

/-- A release at an unknown point only ends the contact. -/
theorem handleRelease_of_nowhere (nowhere : state.located = false) (report : List (List UInt8)) :
    state.handleRelease font report = { state with wasContactDown := false } := by
  have here : State.located { state with wasContactDown := false } = false := nowhere
  unfold handleRelease
  dsimp only
  rw [here]
  rfl

/-- A release at a point that is known: the button is drawn as released, then the place and the
target decide. -/
theorem handleRelease_of_located (located : state.located = true)
    (report : List (List UInt8)) {drawn : State}
    (shown : { state with wasContactDown := false }.unhighlight font = drawn) :
    state.handleRelease font report =
      if outsideDialog state.screenX state.screenY then
        { drawn with chosen := some .close, running := false, position := .loopHead }
      else
        released (match state.target with
          | some id => drawn.act font report id
          | none => drawn) := by
  have here : State.located { state with wasContactDown := false } = true := located
  unfold handleRelease
  dsimp only
  rw [here, if_pos rfl, shown]
  rfl

/-! ## Exits -/

/-- The area behind the dialog comes back from the backup. -/
def restore (state : State) : State :=
  match state.backup with
  | some saved =>
      { state with frame := fun row column =>
          if inDialog row column then saved row column else state.frame row column }
  | none => state

/-- The branches that keep the active application: the screen is restored and its
processes go on. -/
def resume (state : State) : State :=
  state.restore.system (resumeActiveApp state.activeApp)

/-- The chosen action keeps the active application. -/
def resumes (state : State) : Bool :=
  match state.chosen with
  | some .koreader => state.activeApp = App.koreader.name
  | some .plato => state.activeApp = App.plato.name
  | some .netsurf => false
  | _ => true

/-- The branches after the loop. -/
def finish (state : State) : State :=
  let state := { state with position := .done }
  if state.resumes then state.resume
  else
    match state.chosen with
    | some .koreader =>
        { state with files := AppFiles.setActiveApp .koreader }.system
          [.killall .kill .ld219, .killall .kill .plato, .killall .kill .netsurfFb]
    | some .plato =>
        { state with files := AppFiles.setActiveApp .plato }.system
          [.killall .kill .luajit, .killall .kill .netsurfFb]
    | _ =>
        -- NetSurf: only the first of the two files is written
        { state with files := { state.files with currentApp := some (AppFiles.line .netsurf) }
          }.system
          [.killall .kill .ld219, .killall .kill .plato, .killall .kill .luajit, .startBrowser]

end State

/-! ## The loop -/

/-- What `select` returns. -/
inductive SelectResult where
  | ready
  | timeout
  | interrupted
  | failed
deriving DecidableEq, Repr

/-- What the surroundings do next. -/
inductive Label where
  /-- `while (g_running)`. -/
  | test
  | select (result : SelectResult)
  /-- `read` returns a record, or nothing; the music player's report in case it is
  asked for. -/
  | read (event : Option InputEvent) (report : List (List UInt8))
  /-- `SIGTERM`, `SIGINT` or `SIGHUP`. -/
  | signal

namespace State

variable (font : Font)

/-- A step that is not enabled changes nothing. -/
def step (state : State) (label : Label) : State :=
  match label, state.position with
  | .test, .loopHead =>
      if state.running then { state with position := .selecting } else state.finish
  | .select .ready, .selecting =>
      { state with position := if state.touchOpened then .reading else .loopHead }
  | .select .timeout, .selecting => { state with position := .loopHead }
  | .select .interrupted, .selecting => { state with position := .loopHead }
  | .select .failed, .selecting => state.finish
  | .read (some event) report, .reading => state.handleEvent font event report
  | .read none _, .reading => { state with position := .loopHead }
  | .signal, .done => state
  | .signal, _ => { state with running := false }
  | _, _ => state

/-- What a step can do. -/
inductive Stepped (state : State) (label : Label) : State → Prop where
  | idle : Stepped state label state
  /-- From one place of the loop to another; the loop is entered only while it runs. -/
  | move (position : Position) (open_ : state.position ≠ .done) (inside : position ≠ .done)
      (busy : state.position = .selecting ∨ state.position = .reading ∨ state.running = true) :
      Stepped state label { state with position := position }
  | signal (open_ : state.position ≠ .done) : Stepped state label { state with running := false }
  | finish (open_ : state.position ≠ .done) : Stepped state label state.finish
  | record (event : InputEvent) (report : List (List UInt8))
      (label_eq : label = .read (some event) report) (reading : state.position = .reading) :
      Stepped state label (state.handleEvent font event report)

/-- Every step is one of those listed. -/
theorem step_cases (state : State) (label : Label) :
    Stepped font state label (state.step font label) := by
  unfold step
  split
  · next place =>
      split
      · next runs => exact .move .selecting (by simp [place]) (by decide) (.inr (.inr runs))
      · exact .finish (by simp [place])
  · next place =>
      refine .move _ (by simp [place]) ?_ (.inl place)
      split <;> decide
  · next place => exact .move .loopHead (by simp [place]) (by decide) (.inl place)
  · next place => exact .move .loopHead (by simp [place]) (by decide) (.inl place)
  · next place => exact .finish (by simp [place])
  · next event report place => exact .record event report rfl place
  · next place => exact .move .loopHead (by simp [place]) (by decide) (.inr (.inl place))
  · exact .idle
  · next open_ => exact .signal open_
  · exact .idle

end State

/-! ## The start -/

/-- What the program finds as it starts. -/
structure Surroundings where
  files : AppFiles
  frame : Frame UInt16
  fbOpened : Bool := true
  fbMapped : Bool := true
  allocated : Bool := true
  touchOpened : Bool := true
  capacity : Option Int := none
  charging : Option (List UInt8) := none
  report : List (List UInt8) := []

/-- `main` up to its loop; without a framebuffer the active application goes on at
once. -/
def start (font : Font) (found : Surroundings) : State :=
  let activeApp := found.files.findActiveApp
  let suspended : State :=
    { activeApp := activeApp
      files := found.files
      frame := found.frame
      backup := if found.allocated then some found.frame else none
      touchOpened := found.touchOpened
      commands := suspendActiveApp activeApp }
  if !found.fbOpened || !found.fbMapped then
    { suspended with position := .done }.system (resumeActiveApp activeApp)
  else
    let music := queryMusicStatus found.report
    { suspended with labels := labelsFor music }.draw
      (drawDialog font activeApp (queryBatteryStatus found.capacity found.charging) music)

/-- The program from its start. -/
def machine (font : Font) (found : Surroundings) : Machine State Label where
  initial := start font found
  step := State.step font

end Nookobo.Switcher
