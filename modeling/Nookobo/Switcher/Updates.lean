import Nookobo.Semantics.Submission
import Nookobo.Switcher.Hits

/-!
# The app switcher: the regions it updates

What a step draws and which regions it hands to the display controller, as a list of outputs;
`frame_step` says that the drawings among them are what happens to the frame.

Every drawing is followed by a region around it. `epdc_refresh` cuts the corner and the size of a
region, but not the two together, so that it relies on its callers for the right and the lower
edge. All rectangles of the dialog lie on the panel; the square of 16 pixels around a finger that
is closer than 8 pixels to one of these edges does not. `regions_valid` says that this is the only
case.
-/

namespace Nookobo.Switcher

open Nookobo.Semantics Nookobo.Text Nookobo.Shim

/-- `epdc_refresh`, but for the waveform. -/
def epdcRefresh (left top width height : Int) : Pane where
  left := (if left < 0 then 0 else left).toNat
  top := (if top < 0 then 0 else top).toNat
  width := (if width > panelWidth then (panelWidth : Int) else width).toNat
  height := (if height > panelHeight then (panelHeight : Int) else height).toNat

/-- A drawing with the refresh that follows it. -/
def present (layer : Layer UInt16) (left top width height : Int) : List (Output UInt16) :=
  [.draw layer, .submit (epdcRefresh left top width height)]

namespace State

variable (font : Font)

/-! ## The outputs of each operation -/

/-- A button drawn and refreshed. -/
def drawButtonOutputs (id : ButtonId) (pressed : Bool) (state : State) : List (Output UInt16) :=
  let button := button state.labels id
  present (drawButtonWidget font state.activeApp button pressed) button.x button.y button.w
    button.h

/-- What a press draws: its mark, and the button it is on. -/
def handlePressOutputs (state : State) : List (Output UInt16) :=
  if state.located then
    present state.indicator (state.screenX - 8) (state.screenY - 8) 16 16 ++
      match buttonAt state.labels state.screenX state.screenY with
      | some id => state.drawButtonOutputs font id true
      | none => []
  else []

/-- What the action of a button draws: the music buttons bring the music section up to date. -/
def actOutputs (report : List (List UInt8)) (id : ButtonId) (state : State) :
    List (Output UInt16) :=
  match id with
  | .musicPrev | .musicPlay | .musicNext | .musicShuffle =>
      present (drawMusicSection font state.activeApp (queryMusicStatus report)) 202 800 1000 300
  | .frontlight | .koreader | .plato | .netsurf | .close => []

/-- The pressed button drawn unpressed again. -/
def unhighlightOutputs (state : State) : List (Output UInt16) :=
  match state.pressed with
  | some id => state.drawButtonOutputs font id false
  | none => []

/-- What a release draws. -/
def handleReleaseOutputs (report : List (List UInt8)) (state : State) : List (Output UInt16) :=
  if state.located then
    state.unhighlightOutputs font ++
      if outsideDialog state.screenX state.screenY then []
      else
        match state.target with
        | some id => state.actOutputs font report id
        | none => []
  else []

/-- What the end of a frame draws. -/
def handleFrameOutputs (report : List (List UInt8)) (state : State) : List (Output UInt16) :=
  if !state.wasContactDown && state.isContactDown then state.handlePressOutputs font
  else if state.wasContactDown && !state.isContactDown then state.handleReleaseOutputs font report
  else []

/-- What an event draws: only a report does. -/
def handleEventOutputs (event : InputEvent) (report : List (List UInt8)) (state : State) :
    List (Output UInt16) :=
  if event.type = 0 ∧ event.code = 0 then state.handleFrameOutputs font report else []

/-- The area behind the dialog, if it was saved. -/
def restoreOutputs (state : State) : List (Output UInt16) :=
  match state.backup with
  | some saved =>
      [.draw fun row column => if inDialog row column then some (saved row column) else none]
  | none => []

/-- What leaving the loop draws: the area behind the dialog, when it resumes the application. -/
def finishOutputs (state : State) : List (Output UInt16) :=
  if state.resumes then state.restoreOutputs ++ [.submit (epdcRefresh dlgX dlgY dlgW dlgH)]
  else []

/-- The outputs of a step. -/
def outputs (state : State) (label : Label) : List (Output UInt16) :=
  match label, state.position with
  | .test, .loopHead => if state.running then [] else state.finishOutputs
  | .select .failed, .selecting => state.finishOutputs
  | .read (some event) report, .reading => state.handleEventOutputs font event report
  | _, _ => []

end State

/-- The outputs of `main` up to its loop. -/
def startOutputs (font : Font) (found : Surroundings) : List (Output UInt16) :=
  if !found.fbOpened || !found.fbMapped then []
  else
    present (drawDialog font found.files.findActiveApp
      (queryBatteryStatus found.capacity found.charging) (queryMusicStatus found.report))
      dlgX dlgY dlgW dlgH

/-- The switcher with a log of its submissions. -/
structure Traced where
  state : State
  log : SubmissionLog UInt16

/-- One step, with its outputs logged. -/
def Traced.step (font : Font) (traced : Traced) (label : Label) : Traced where
  state := traced.state.step font label
  log := traced.log.recordAll (traced.state.outputs font label)

/-- The switcher with its log, from its start. -/
def tracedMachine (font : Font) (found : Surroundings) : Machine Traced Label where
  initial := ⟨start font found, ({} : SubmissionLog UInt16).recordAll (startOutputs font found)⟩
  step := Traced.step font

/-- Every region that was submitted lies on the panel and covers what had been drawn. -/
def Traced.Valid (traced : Traced) : Prop := traced.log.Valid panelWidth panelHeight

/-- A press keeps 8 pixels away from the right and the lower edge of the panel. -/
def Traced.PressInside (traced : Traced) (label : Label) : Prop :=
  traced.state.lands label = true → traced.state.located = true →
    traced.state.screenX + 8 ≤ panelWidth ∧ traced.state.screenY + 8 ≤ panelHeight

/-! ## The outputs tell what happens to the frame -/

namespace State

variable (font : Font)

/-- Drawings in a row. -/
def paintAll (outputs : List (Output UInt16)) (frame : Frame UInt16) : Frame UInt16 :=
  outputs.foldl Output.paint frame

/-- Outputs in two lists are painted one list after the other. -/
theorem paintAll_append (first second : List (Output UInt16)) (frame : Frame UInt16) :
    paintAll (first ++ second) frame = paintAll second (paintAll first frame) :=
  List.foldl_append

/-- A press changes the frame by its outputs. -/
theorem frame_handlePress (state : State) :
    (state.handlePress font).frame = paintAll (state.handlePressOutputs font) state.frame := by
  unfold handlePressOutputs
  cases located : state.located with
  | false =>
      rw [handlePress_of_nowhere font located]
      rfl
  | true =>
      have here : State.located { state with wasContactDown := true } = true := located
      simp only [handlePress, here, if_true]
      split
      · next id found =>
          have same : buttonAt state.labels state.screenX state.screenY = some id := found
          rw [same]
          rfl
      · next found =>
          have same : buttonAt state.labels state.screenX state.screenY = none := found
          rw [same]
          rfl

/-- Taking the highlight away changes the frame by its outputs. -/
theorem frame_unhighlight (state : State) :
    (state.unhighlight font).frame = paintAll (state.unhighlightOutputs font) state.frame := by
  unfold unhighlight unhighlightOutputs
  cases state.pressed with
  | none => rfl
  | some id => rfl

/-- A button's action changes the frame by its outputs. -/
theorem frame_act (report : List (List UInt8)) (id : ButtonId) (state : State) :
    (state.act font report id).frame = paintAll (state.actOutputs font report id) state.frame := by
  cases id <;> rfl

/-- A release changes the frame by its outputs. -/
theorem frame_handleRelease (report : List (List UInt8)) (state : State) :
    (state.handleRelease font report).frame =
      paintAll (state.handleReleaseOutputs font report) state.frame := by
  unfold handleReleaseOutputs
  cases located : state.located with
  | false =>
      rw [handleRelease_of_nowhere font located report]
      rfl
  | true =>
      have shown : ({ state with wasContactDown := false }.unhighlight font).frame =
          paintAll (state.unhighlightOutputs font) state.frame :=
        frame_unhighlight font { state with wasContactDown := false }
      have activeApp : ({ state with wasContactDown := false }.unhighlight font).activeApp =
          state.activeApp := by
        unfold unhighlight
        split <;> rfl
      have kept : ∀ acted : State, acted.released.frame = acted.frame := by
        intro acted
        unfold released
        split <;> rfl
      generalize shows : { state with wasContactDown := false }.unhighlight font = drawn
        at shown activeApp
      rw [handleRelease_of_located font located report shows, if_pos rfl, paintAll_append, ← shown]
      cases outsideDialog state.screenX state.screenY with
      | true => rfl
      | false =>
          rw [if_neg Bool.false_ne_true, if_neg Bool.false_ne_true, kept]
          cases state.target with
          | none => rfl
          | some id =>
              have outputs : drawn.actOutputs font report id = state.actOutputs font report id := by
                unfold actOutputs
                rw [activeApp]
              dsimp only
              rw [← outputs]
              exact frame_act font report id drawn

/-- An event changes the frame by its outputs. -/
theorem frame_handleEvent (event : InputEvent) (report : List (List UInt8)) (state : State) :
    (state.handleEvent font event report).frame =
      paintAll (state.handleEventOutputs font event report) state.frame := by
  unfold handleEventOutputs
  by_cases reports : event.type = 0 ∧ event.code = 0
  · rw [handleEvent_of_report font reports report state, if_pos reports]
    unfold handleFrame handleFrameOutputs
    split
    · exact frame_handlePress font state
    · split
      · exact frame_handleRelease font report state
      · rfl
  · rw [if_neg reports]
    simp only [handleEvent, if_neg reports]
    split_ifs <;> rfl

/-- Restoring the area behind the dialog is its one output. -/
theorem frame_restore (state : State) :
    state.restore.frame = paintAll state.restoreOutputs state.frame := by
  unfold restore restoreOutputs
  cases state.backup with
  | none => rfl
  | some saved =>
      funext row column
      change (if inDialog row column then saved row column else state.frame row column) =
        (if inDialog row column then some (saved row column) else none).getD
          (state.frame row column)
      split <;> rfl

/-- Leaving the loop changes the frame by its outputs. -/
theorem frame_finish (state : State) :
    state.finish.frame = paintAll state.finishOutputs state.frame := by
  have ended : State.resumes { state with position := .done } = state.resumes := rfl
  unfold finish finishOutputs
  dsimp only
  rw [ended]
  split
  · rw [paintAll_append]
    exact frame_restore { state with position := .done }
  · split <;> rfl

/-- The drawings of a step lead from the frame before it to the one after it. -/
theorem frame_step (label : Label) (state : State) :
    (state.step font label).frame = paintAll (state.outputs font label) state.frame := by
  unfold step outputs
  cases state.position with
  | loopHead =>
      cases label with
      | test =>
          dsimp only
          split
          · rfl
          · exact frame_finish state
      | select result => cases result <;> rfl
      | read event report => cases event <;> rfl
      | signal => rfl
  | selecting =>
      cases label with
      | select result =>
          cases result with
          | failed => exact frame_finish state
          | ready | timeout | interrupted => rfl
      | read event report => cases event <;> rfl
      | test | signal => rfl
  | reading =>
      cases label with
      | read event report =>
          cases event with
          | none => rfl
          | some event => exact frame_handleEvent font event report state
      | select result => cases result <;> rfl
      | test | signal => rfl
  | done =>
      cases label with
      | select result => cases result <;> rfl
      | read event report => cases event <;> rfl
      | test | signal => rfl

end State

/-- The start changes the frame by its outputs. -/
theorem frame_start (font : Font) (found : Surroundings) :
    (start font found).frame = State.paintAll (startOutputs font found) found.frame := by
  unfold start startOutputs
  dsimp only
  cases !found.fbOpened || !found.fbMapped with
  | true => rfl
  | false =>
      rw [if_neg Bool.false_ne_true, if_neg Bool.false_ne_true]
      generalize drawDialog font _ _ _ = layer
      rfl

/-! ## The regions -/

variable {width height : Nat}

/-- Where the panel has room for a rectangle it is submitted as it is. -/
theorem epdcRefresh_eq {left top width height : Int} (first : 0 ≤ left) (second : 0 ≤ top)
    (wide : width ≤ panelWidth) (high : height ≤ panelHeight) :
    epdcRefresh left top width height =
      ⟨left.toNat, top.toNat, width.toNat, height.toNat⟩ := by
  unfold epdcRefresh
  rw [if_neg (by omega), if_neg (by omega), if_neg (by omega), if_neg (by omega)]

namespace State

variable (font : Font)

/-- A button lies on the panel and is drawn inside its rectangle. -/
theorem settles_drawButton (id : ButtonId) (pressed : Bool) (state : State) :
    Output.Settles panelWidth panelHeight [] (state.drawButtonOutputs font id pressed) := by
  obtain ⟨⟨⟨left, right⟩, top, bottom⟩, _, broad, high⟩ := button_fits state.labels id
  have within : ∀ pane : Pane, pane.Holds _ _ _ _ → _ := fun pane box =>
    within_pane_drawButtonWidget font state.activeApp state.labels id pressed box
  unfold drawButtonOutputs
  generalize button state.labels id = button at *
  unfold dlgX dlgY dlgW dlgH at *
  have region : epdcRefresh button.x button.y button.w button.h =
      ⟨button.x.toNat, button.y.toNat, button.w.toNat, button.h.toNat⟩ :=
    epdcRefresh_eq (by omega) (by omega) (by unfold panelWidth; omega)
      (by unfold panelHeight; omega)
  refine Output.settles_pair ?_ ?_
  · rw [region]
    unfold Pane.OnPanel panelWidth panelHeight
    dsimp only
    omega
  · rw [region]
    apply within
    unfold Pane.Holds
    dsimp only
    omega

/-- The square that answers a touch is inside the region around it. -/
theorem within_indicator (state : State) :
    state.indicator.Within
      (epdcRefresh (state.screenX - 8) (state.screenY - 8) 16 16).contains := by
  intro row column outside
  apply if_neg
  intro inside
  unfold inRect at inside
  unfold epdcRefresh Pane.contains panelWidth panelHeight at outside
  simp only [Bool.and_eq_true, Bool.and_eq_false_iff, decide_eq_true_eq, decide_eq_false_iff_not]
    at inside outside
  split_ifs at outside <;> omega

/-- The region around a finger lies on the panel away from two of its edges. -/
theorem indicator_onPanel_iff (state : State) :
    (epdcRefresh (state.screenX - 8) (state.screenY - 8) 16 16).OnPanel panelWidth panelHeight ↔
      state.screenX + 8 ≤ panelWidth ∧ state.screenY + 8 ≤ panelHeight := by
  unfold epdcRefresh Pane.OnPanel panelWidth panelHeight
  dsimp only
  split_ifs <;> omega

/-- Taking the highlight away leaves nothing drawn without a refresh. -/
theorem settles_unhighlight (state : State) :
    Output.Settles panelWidth panelHeight [] (state.unhighlightOutputs font) := by
  unfold unhighlightOutputs
  cases state.pressed with
  | none => rfl
  | some id => exact settles_drawButton font id false state

/-- The region of the music player holds all that is drawn for it. -/
theorem settles_act (report : List (List UInt8)) (id : ButtonId) (state : State) :
    Output.Settles panelWidth panelHeight [] (state.actOutputs font report id) := by
  have region : epdcRefresh 202 800 1000 300 = musicPane := rfl
  have onPanel : musicPane.OnPanel panelWidth panelHeight := by decide
  have within := within_musicPane font state.activeApp (length_status_queryMusicStatus report)
  cases id with
  | musicPrev | musicPlay | musicNext | musicShuffle => exact Output.settles_pair onPanel within
  | frontlight | koreader | plato | netsurf | close => rfl

/-- A release leaves nothing drawn without a refresh. -/
theorem settles_handleRelease (report : List (List UInt8)) (state : State) :
    Output.Settles panelWidth panelHeight [] (state.handleReleaseOutputs font report) := by
  unfold handleReleaseOutputs
  split
  · refine Output.settles_append (settles_unhighlight font state) ?_
    split
    · rfl
    · cases state.target with
      | none => rfl
      | some id => exact settles_act font report id state
  · rfl

/-- A press settles when it keeps away from two edges. -/
theorem settles_handlePress {state : State} (inside : state.located = true →
    state.screenX + 8 ≤ panelWidth ∧ state.screenY + 8 ≤ panelHeight) :
    Output.Settles panelWidth panelHeight [] (state.handlePressOutputs font) := by
  unfold handlePressOutputs
  split
  · next located =>
    refine Output.settles_append (Output.settles_pair ?_ (within_indicator state)) ?_
    · exact (indicator_onPanel_iff state).mpr (inside located)
    · cases buttonAt state.labels state.screenX state.screenY with
      | none => rfl
      | some id => exact settles_drawButton font id true state
  · rfl

/-- The region of the dialog holds what is restored. -/
theorem settles_finish (state : State) :
    Output.Settles panelWidth panelHeight [] state.finishOutputs := by
  have onPanel : (epdcRefresh dlgX dlgY dlgW dlgH).OnPanel panelWidth panelHeight := by decide
  unfold finishOutputs
  split
  · unfold restoreOutputs
    cases state.backup with
    | none => exact ⟨⟨onPanel, fun _ member => by cases member⟩, rfl⟩
    | some saved =>
        refine Output.settles_pair onPanel ?_
        intro row column outside
        exact if_neg (Bool.eq_false_iff.mp outside)
  · rfl

/-- The outputs of a step settle when a press keeps away from two edges. -/
theorem settles_outputs {state : State} {label : Label} (inside : state.lands label = true →
    state.located = true → state.screenX + 8 ≤ panelWidth ∧ state.screenY + 8 ≤ panelHeight) :
    Output.Settles panelWidth panelHeight [] (state.outputs font label) := by
  unfold outputs
  split
  · split
    · rfl
    · exact settles_finish state
  · exact settles_finish state
  · next event report reading =>
    unfold handleEventOutputs
    split
    · next reports =>
      unfold handleFrameOutputs
      split
      · next lands =>
        apply settles_handlePress
        apply inside
        rw [lands_of_report reading reports]
        exact lands
      · split
        · exact settles_handleRelease font report state
        · rfl
    · rfl
  · rfl

/-- A press too close to an edge submits a region that reaches off the panel. -/
theorem submits_off_panel {state : State} {label : Label} (lands : state.lands label = true)
    (located : state.located = true) :
    .submit (epdcRefresh (state.screenX - 8) (state.screenY - 8) 16 16) ∈
      state.outputs font label := by
  obtain ⟨event, report, rfl, reading, reports, down⟩ := report_of_lands lands
  unfold outputs handleEventOutputs handleFrameOutputs handlePressOutputs
  rw [reading]
  dsimp only
  rw [if_pos reports, if_pos down, if_pos located]
  exact List.mem_append_left _ (List.mem_cons_of_mem _ List.mem_cons_self)

end State

/-- The start leaves nothing drawn without a refresh. -/
theorem settles_start (font : Font) (found : Surroundings) :
    Output.Settles panelWidth panelHeight [] (startOutputs font found) := by
  have onPanel : (epdcRefresh dlgX dlgY dlgW dlgH).OnPanel panelWidth panelHeight := by decide
  unfold startOutputs
  split
  · rfl
  · refine Output.settles_pair onPanel ?_
    exact within_drawDialog font found.files.findActiveApp
      (length_queryBatteryStatus found.capacity found.charging)
      (length_status_queryMusicStatus found.report)

/-! ## Runs -/

/-- In every run, all regions lie on the panel and cover what was drawn exactly when every press
keeps 8 pixels away from the right and the lower edge. -/
theorem regions_valid (font : Font) (found : Surroundings) (labels : List Label) :
    (tracedMachine font found).Always Traced.Valid (tracedMachine font found).initial labels ↔
      (tracedMachine font found).StepsMeet Traced.PressInside (tracedMachine font found).initial
        labels := by
  refine Machine.always_iff_stepsMeet_of_all
    (fun traced => traced.Valid ∧ traced.log.pending = []) ?_ ?_ ?_ ?_ labels
  · exact fun traced valid => valid.1
  · rintro traced label ⟨valid, settled⟩ inside
    have settles := State.settles_outputs font inside
    rw [← settled] at settles
    exact SubmissionLog.Valid.recordAll valid settles
  · rintro traced label _ edge
    unfold Traced.PressInside at edge
    simp only [not_forall] at edge
    obtain ⟨lands, located, outside⟩ := edge
    exact SubmissionLog.not_valid_recordAll
      (fun onPanel => outside ((State.indicator_onPanel_iff traced.state).mp onPanel))
      (State.submits_off_panel font lands located)
  · exact SubmissionLog.valid_empty.recordAll (settles_start font found)

/-- A press in the lower right corner submits a region that ends 7 pixels off the panel. -/
theorem corner_press_off_panel :
    ¬ (tracedMachine blankFont (whiteScreen .koreader)).Always Traced.Valid
      (tracedMachine blankFont (whiteScreen .koreader)).initial (tap 1403 1871) := by
  intro valid
  obtain ⟨_, _, _, _, _, _, pressed, _⟩ := valid
  refine SubmissionLog.not_valid_recordAll ?_
    (State.submits_off_panel blankFont (by decide +kernel) (by decide +kernel)) pressed
  rw [State.indicator_onPanel_iff]
  decide +kernel

end Nookobo.Switcher
