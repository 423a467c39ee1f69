import Nookobo.Switcher.Frozen

/-!
# The app switcher: the screen it gives back

Only the rectangle of the dialog is saved, and only it is restored. Everything the
switcher draws stays inside, whatever the texts in it say, but for one thing: the square
that answers a touch is drawn where the finger is. A touch outside the dialog, the way to
dismiss it, leaves a black square on the page.
-/

namespace Nookobo.Switcher

open Nookobo.Semantics Nookobo.Text Nookobo.Shim

namespace State

/-! ## Drawing inside the dialog -/

/-- The two differ on the screen only inside the dialog. -/
structure SameOutside (before after : State) : Prop where
  backup_eq : after.backup = before.backup
  frame_eq : ∀ row column, inDialog row column = false →
    after.frame row column = before.frame row column

/-- A state differs from itself nowhere. -/
theorem SameOutside.refl (state : State) : SameOutside state state := ⟨rfl, fun _ _ _ => rfl⟩

/-- Two steps that change nothing outside the dialog change nothing there together. -/
theorem SameOutside.trans {first second third : State} (early : SameOutside first second)
    (late : SameOutside second third) : SameOutside first third := by
  refine ⟨late.backup_eq.trans early.backup_eq, ?_⟩
  intro row column outside
  exact (late.frame_eq row column outside).trans (early.frame_eq row column outside)

/-- What is drawn inside the dialog is not seen outside it. -/
theorem sameOutside_draw {layer : Layer UInt16} (within : layer.Within inDialog) (state : State) :
    SameOutside state (state.draw layer) := by
  refine ⟨rfl, ?_⟩
  intro row column outside
  exact Frame.overlay_of_none (within row column outside)

variable (font : Font)

/-- A button is drawn inside the dialog. -/
theorem sameOutside_drawButton (id : ButtonId) (pressed : Bool) (state : State) :
    SameOutside state (state.drawButton font id pressed) :=
  sameOutside_draw (within_drawButtonWidget font state.activeApp state.labels id pressed) state

/-- The music section is drawn inside the dialog. -/
theorem sameOutside_showMusic (report : List (List UInt8)) (state : State) :
    SameOutside state (state.showMusic font report) := by
  have within := within_drawMusicSection font state.activeApp
    (length_status_queryMusicStatus report)
  have drawn := sameOutside_draw within { state with labels := labelsFor (queryMusicStatus report) }
  exact ⟨drawn.backup_eq, drawn.frame_eq⟩

/-- The highlight is taken away inside the dialog. -/
theorem sameOutside_unhighlight (state : State) : SameOutside state (state.unhighlight font) := by
  unfold unhighlight
  split
  · exact sameOutside_drawButton font _ _ state
  · exact .refl state

/-- A command draws nothing. -/
theorem sameOutside_system (commands : List Command) (state : State) :
    SameOutside state (state.system commands) := ⟨rfl, fun _ _ _ => rfl⟩

/-- A button's action draws inside the dialog. -/
theorem sameOutside_act (report : List (List UInt8)) (id : ButtonId) (state : State) :
    SameOutside state (state.act font report id) := by
  cases id with
  | musicPrev | musicPlay | musicNext | musicShuffle =>
      exact (sameOutside_system _ state).trans (sameOutside_showMusic font report _)
  | frontlight => exact sameOutside_system _ state
  | koreader | plato | netsurf | close => exact ⟨rfl, fun _ _ _ => rfl⟩

/-- The end of a release draws nothing. -/
theorem sameOutside_released (acted : State) : SameOutside acted acted.released := by
  unfold released
  split <;> exact ⟨rfl, fun _ _ _ => rfl⟩

/-- A release draws inside the dialog. -/
theorem sameOutside_handleRelease (report : List (List UInt8)) (state : State) :
    SameOutside state (state.handleRelease font report) := by
  have shown : SameOutside state ({ state with wasContactDown := false }.unhighlight font) := by
    have drawn := sameOutside_unhighlight font { state with wasContactDown := false }
    exact ⟨drawn.backup_eq, drawn.frame_eq⟩
  cases located : state.located with
  | false =>
      rw [handleRelease_of_nowhere font located report]
      exact ⟨rfl, fun _ _ _ => rfl⟩
  | true =>
      generalize shows : { state with wasContactDown := false }.unhighlight font = drawn at shown
      rw [handleRelease_of_located font located report shows]
      split
      · exact ⟨shown.backup_eq, shown.frame_eq⟩
      · cases state.target with
        | none => exact shown.trans (sameOutside_released drawn)
        | some id =>
            have acted := shown.trans (sameOutside_act font report id drawn)
            exact acted.trans (sameOutside_released _)

/-- The record is the report of a press that draws its square. -/
def presses (state : State) (event : InputEvent) : Bool :=
  decide (event.type = 0 ∧ event.code = 0) && !state.wasContactDown && state.isContactDown &&
    state.located

/-- Outside the dialog a press draws its square and nothing else. -/
theorem handlePress_outside (state : State) (located : state.located = true) :
    SameOutside (state.draw state.indicator) (state.handlePress font) := by
  have inside : State.located { state with wasContactDown := true } = true := located
  simp only [handlePress, inside, if_true]
  split
  · next id found =>
      have drawn := sameOutside_drawButton font id true
        { (State.draw (State.indicator { state with wasContactDown := true })
          { state with wasContactDown := true }) with pressed := some id }
      exact ⟨drawn.backup_eq, drawn.frame_eq⟩
  · exact ⟨rfl, fun _ _ _ => rfl⟩

/-- An event draws outside the dialog the square of a press and nothing else. -/
theorem handleEvent_outside (event : InputEvent) (report : List (List UInt8)) (state : State) :
    SameOutside (if state.presses event then state.draw state.indicator else state)
      (state.handleEvent font event report) := by
  by_cases reports : event.type = 0 ∧ event.code = 0
  · rw [handleEvent_of_report font reports report state]
    simp only [handleFrame, presses, reports, and_self, decide_true, Bool.true_and]
    cases was : state.wasContactDown <;> cases is : state.isContactDown
    · exact .refl state
    · cases located : state.located with
      | true => exact handlePress_outside font state located
      | false =>
          rw [handlePress_of_nowhere font located]
          exact ⟨rfl, fun _ _ _ => rfl⟩
    · exact sameOutside_handleRelease font report state
    · exact .refl state
  · have quiet : state.presses event = false := by simp [presses, reports]
    rw [quiet, if_neg Bool.false_ne_true]
    simp only [handleEvent, if_neg reports]
    split_ifs <;> exact ⟨rfl, fun _ _ _ => rfl⟩

/-! ## Exits -/

/-- Restoring the area behind the dialog is not seen outside it. -/
theorem sameOutside_restore (state : State) : SameOutside state state.restore := by
  unfold restore
  split
  · refine ⟨rfl, ?_⟩
    intro row column outside
    simp only [outside]
    rfl
  · exact .refl state

/-- Leaving the loop is not seen outside the dialog. -/
theorem sameOutside_finish (state : State) : SameOutside state state.finish := by
  have restored := sameOutside_restore { state with position := .done }
  simp only [finish]
  split
  · exact ⟨restored.backup_eq, restored.frame_eq⟩
  · split <;> exact ⟨rfl, fun _ _ _ => rfl⟩

/-- An exit that keeps the active application puts the saved pixels back. -/
theorem finish_inside {state : State} {saved : Frame UInt16} (allocated : state.backup = some saved)
    (resumes : state.finish.resumes = true) {row column : Nat}
    (inside : inDialog row column = true) : state.finish.frame row column = saved row column := by
  have kept := control_finish state
  have activeApp_eq : state.finish.activeApp = state.activeApp := congrArg Control.activeApp kept
  have chosen_eq : state.finish.chosen = state.chosen := congrArg Control.chosen kept
  have here : State.resumes { state with position := .done } = true := by
    rw [State.resumes, activeApp_eq, chosen_eq] at resumes
    exact resumes
  have exits : state.finish = { state with position := .done }.resume := if_pos here
  rw [exits]
  simp only [resume, system, restore, allocated]
  exact if_pos inside

/-! ## Runs -/

/-- The square of a press covers only black pixels where it reaches out of the dialog. -/
def PressesOnBlack (state : State) (label : Label) : Prop :=
  ∀ event report, label = .read (some event) report → state.position = .reading →
    state.presses event = true →
      ∀ row column, inDialog row column = false →
        inRect (state.screenX - 6) (state.screenY - 6) 12 12 row column = true →
          state.frame row column = colorBlack

/-- Outside the dialog the screen is the one found, but for black pixels; where it has
ended by keeping the active application, the dialog is gone. -/
structure Covered (found : Frame UInt16) (state : State) : Prop where
  saved : state.backup = some found
  outside : ∀ row column, inDialog row column = false →
    state.frame row column = found row column ∨ state.frame row column = colorBlack
  inside : state.position = .done → state.resumes = true →
    ∀ row column, inDialog row column = true → state.frame row column = found row column

/-- A pixel outside the dialog has been blackened. -/
def Blackened (found : Frame UInt16) (state : State) : Prop :=
  ∃ row column, inDialog row column = false ∧ found row column ≠ colorBlack ∧
    state.frame row column = colorBlack

/-- After an exit that keeps the application, the screen is the one found exactly when no pixel
outside the dialog was blackened. -/
theorem Covered.frame_eq_iff {found : Frame UInt16} {state : State} (covered : Covered found state)
    (ended : state.position = .done) (resumes : state.resumes = true) :
    state.frame = found ↔ ¬ Blackened found state := by
  constructor
  · rintro same ⟨row, column, outside, light, dark⟩
    rw [same] at dark
    exact light dark
  · intro unblackened
    funext row column
    cases place : inDialog row column with
    | true => exact covered.inside ended resumes row column place
    | false =>
        rcases covered.outside row column place with same | dark
        · exact same
        · by_cases light : found row column = colorBlack
          · rw [dark, light]
          · exact absurd ⟨row, column, place, light, dark⟩ unblackened

/-- The start draws inside the dialog. -/
theorem start_outside (found : Surroundings) {row column : Nat}
    (outside : inDialog row column = false) :
    (start font found).frame row column = found.frame row column := by
  have within := within_drawDialog font found.files.findActiveApp
    (length_queryBatteryStatus found.capacity found.charging)
    (length_status_queryMusicStatus found.report)
  simp only [start]
  generalize drawDialog font _ _ _ = layer at within ⊢
  split
  · rfl
  · exact Frame.overlay_of_none (within row column outside)

/-- With a backup, the screen is covered from the start on. -/
theorem covered_start (found : Surroundings) (allocated : found.allocated = true) :
    Covered found.frame (start font found) := by
  refine ⟨?_, fun _ _ outside => .inl (start_outside font found outside), ?_⟩
  · simp only [start, allocated, if_true]
    split <;> rfl
  · simp only [start]
    split
    · exact fun _ _ _ _ _ => rfl
    · intro ended
      cases ended

/-- At the start no pixel has been blackened. -/
theorem start_not_blackened (found : Surroundings) :
    ¬ Blackened found.frame (start font found) := by
  rintro ⟨row, column, outside, light, dark⟩
  rw [start_outside font found outside] at dark
  exact light dark

/-- A step that draws only inside the dialog and does not end the program. -/
theorem Covered.same {found : Frame UInt16} {state after : State} (covered : Covered found state)
    (same : SameOutside state after) (open_ : after.position ≠ .done) : Covered found after := by
  refine ⟨same.backup_eq.trans covered.saved, ?_, fun ended => absurd ended open_⟩
  intro row column outside
  rw [same.frame_eq row column outside]
  exact covered.outside row column outside

/-- What is drawn inside the dialog blackens no pixel outside it. -/
theorem blackened_congr {found : Frame UInt16} {state after : State}
    (same : SameOutside state after) : Blackened found after ↔ Blackened found state := by
  constructor
  · rintro ⟨row, column, outside, light, dark⟩
    exact ⟨row, column, outside, light, (same.frame_eq row column outside).symm.trans dark⟩
  · rintro ⟨row, column, outside, light, dark⟩
    exact ⟨row, column, outside, light, (same.frame_eq row column outside).trans dark⟩

/-- The square of a press. -/
theorem covered_indicator {found : Frame UInt16} {state : State} (covered : Covered found state)
    (open_ : state.position ≠ .done) : Covered found (state.draw state.indicator) := by
  refine ⟨covered.saved, ?_, fun ended => absurd ended open_⟩
  intro row column outside
  by_cases inside : inRect (state.screenX - 6) (state.screenY - 6) 12 12 row column = true
  · right
    simp [draw, Frame.overlay, indicator, drawRect, fbDrawRect, inside]
  · have clear : state.indicator row column = none := if_neg inside
    have kept : (state.draw state.indicator).frame row column = state.frame row column :=
      Frame.overlay_of_none clear
    rw [kept]
    exact covered.outside row column outside

/-- The square of a press blackens a pixel exactly where it covers one outside the dialog that is
not black. -/
theorem blackened_indicator {found : Frame UInt16} {state : State} (covered : Covered found state) :
    Blackened found (state.draw state.indicator) ↔ Blackened found state ∨
      ¬ ∀ row column, inDialog row column = false →
        inRect (state.screenX - 6) (state.screenY - 6) 12 12 row column = true →
          state.frame row column = colorBlack := by
  have drawn (row column : Nat) : (state.draw state.indicator).frame row column =
      if inRect (state.screenX - 6) (state.screenY - 6) 12 12 row column = true then colorBlack
      else state.frame row column := by
    simp only [draw, Frame.overlay, indicator, drawRect, fbDrawRect]
    split <;> rfl
  constructor
  · rintro ⟨row, column, outside, light, dark⟩
    rw [drawn] at dark
    by_cases before : state.frame row column = colorBlack
    · exact .inl ⟨row, column, outside, light, before⟩
    · refine .inr fun black => ?_
      split at dark
      · next inside => exact before (black row column outside inside)
      · exact before dark
  · rintro (⟨row, column, outside, light, dark⟩ | covers)
    · refine ⟨row, column, outside, light, ?_⟩
      rw [drawn]
      split
      · rfl
      · exact dark
    · simp only [not_forall] at covers
      obtain ⟨row, column, outside, inside, bright⟩ := covers
      refine ⟨row, column, outside, ?_, ?_⟩
      · -- the pixel has not been touched yet
        have untouched := (covered.outside row column outside).resolve_right bright
        rwa [← untouched]
      · rw [drawn, if_pos inside]

/-- No event ends the program. -/
theorem handleEvent_open {state : State} (reading : state.position = .reading)
    (event : InputEvent) (report : List (List UInt8)) :
    (state.handleEvent font event report).position ≠ .done := by
  rcases control_handleEvent font event report state with
    ⟨id, _, chosen⟩ | ⟨_, more, position, _, place, kept⟩
  · have there : (state.handleEvent font event report).position = .loopHead :=
      congrArg Control.position chosen
    rw [there]
    decide
  · have there : (state.handleEvent font event report).position = position :=
      congrArg Control.position kept
    rw [there]
    rcases place with rfl | rfl
    · change state.position ≠ .done
      rw [reading]
      decide
    · decide

/-- Every step keeps the screen covered. -/
theorem covered_step {found : Frame UInt16} {state : State} (covered : Covered found state)
    (label : Label) : Covered found (state.step font label) := by
  have stepped := state.step_cases font label
  generalize state.step font label = after at stepped ⊢
  cases stepped with
  | idle => exact covered
  | move position open_ inside busy => exact covered.same ⟨rfl, fun _ _ _ => rfl⟩ inside
  | signal open_ => exact covered.same ⟨rfl, fun _ _ _ => rfl⟩ open_
  | finish open_ =>
      have same := sameOutside_finish state
      refine ⟨same.backup_eq.trans covered.saved, ?_, ?_⟩
      · intro row column outside
        rw [same.frame_eq row column outside]
        exact covered.outside row column outside
      · intro _ resumes row column inside
        exact finish_inside covered.saved resumes inside
  | record event report label_eq reading =>
      have open_ := handleEvent_open font reading event report
      have drawn := handleEvent_outside font event report state
      split at drawn
      · refine (covered_indicator covered ?_).same drawn open_
        rw [reading]
        decide
      · exact covered.same drawn open_

/-- A step blackens a pixel exactly when it is a press that does not press on black. -/
theorem blackened_step {found : Frame UInt16} {state : State} (covered : Covered found state)
    (label : Label) :
    Blackened found (state.step font label) ↔
      Blackened found state ∨ ¬ state.PressesOnBlack label := by
  by_cases record : ∃ event report, label = .read (some event) report ∧ state.position = .reading
  · obtain ⟨event, report, rfl, reading⟩ := record
    have same : state.step font (.read (some event) report) =
        state.handleEvent font event report := by
      simp only [step, reading]
    have drawn := handleEvent_outside font event report state
    rw [same, blackened_congr drawn]
    cases presses : state.presses event with
    | true =>
        rw [if_pos rfl, blackened_indicator covered]
        apply or_congr Iff.rfl
        apply not_congr
        constructor
        · intro black event' report' label_eq _ _
          exact black
        · intro onBlack
          exact onBlack event report rfl reading presses
    | false =>
        rw [if_neg Bool.false_ne_true]
        have onBlack : state.PressesOnBlack (.read (some event) report) := by
          intro event' report' label_eq _ presses'
          cases label_eq
          rw [presses] at presses'
          cases presses'
        simp [onBlack]
  · have onBlack : state.PressesOnBlack label := by
      intro event report label_eq reading
      exact absurd ⟨event, report, label_eq, reading⟩ record
    have stepped := state.step_cases font label
    generalize state.step font label = after at stepped ⊢
    simp only [onBlack, not_true, or_false]
    cases stepped with
    | idle => exact Iff.rfl
    | move position open_ inside busy => exact Iff.rfl
    | signal open_ => exact Iff.rfl
    | finish open_ => exact blackened_congr (sameOutside_finish state)
    | record event report label_eq reading =>
        exact absurd ⟨event, report, label_eq, reading⟩ record

end State

/-- A run that ends by keeping the active application gives the screen back as it was
exactly when every press that reaches out of the dialog falls on black. -/
theorem screen_restored_exact (font : Font) (found : Surroundings) (labels : List Label)
    (allocated : found.allocated = true)
    (ended : ((machine font found).run (machine font found).initial labels).position = .done)
    (resumes : ((machine font found).run (machine font found).initial labels).resumes = true) :
    ((machine font found).run (machine font found).initial labels).frame = found.frame ↔
      (machine font found).StepsMeet State.PressesOnBlack (machine font found).initial labels := by
  have anything : (machine font found).StepsMeet (fun _ _ => True) (machine font found).initial
      labels := Machine.StepsMeet.of_forall fun _ _ => trivial
  have covered : State.Covered found.frame
      ((machine font found).run (machine font found).initial labels) :=
    Machine.run_of_invariant (State.Covered found.frame)
      (fun state label covered _ => State.covered_step font covered label)
      (State.covered_start font found allocated) anything
  refine (covered.frame_eq_iff ended resumes).trans ?_
  apply Machine.not_spoiled_iff_stepsMeet (State.Covered found.frame)
    (State.Blackened found.frame)
  · intro state label covered
    exact State.covered_step font covered label
  · intro state label covered
    exact State.blackened_step font covered label
  · exact State.covered_start font found allocated
  · exact State.start_not_blackened font found

/-- A signal while nothing has been touched leaves the screen as it was. -/
theorem screen_restored_exact_terminated :
    ((machine blankFont (whiteScreen .koreader)).run
      (machine blankFont (whiteScreen .koreader)).initial [.signal, .test]).frame =
      (whiteScreen .koreader).frame := by
  refine (screen_restored_exact blankFont (whiteScreen .koreader) [.signal, .test] rfl rfl
    rfl).mpr ?_
  refine ⟨?_, ?_, trivial⟩
  · intro event report label_eq
    cases label_eq
  · intro event report label_eq
    cases label_eq

/-- A tap near the top left corner of a white screen dismisses the dialog and leaves a
black square there. -/
theorem screen_tap_outside_leaves_square :
    ¬ ∀ (font : Font) (found : Surroundings) (labels : List Label), found.allocated = true →
      ((machine font found).run (machine font found).initial labels).position = .done →
      ((machine font found).run (machine font found).initial labels).resumes = true →
        ((machine font found).run (machine font found).initial labels).frame = found.frame := by
  intro claimed
  have restored := claimed blankFont (whiteScreen .koreader) (tap 50 50) rfl (by decide +kernel)
    (by decide +kernel)
  have pixel := congrFun (congrFun restored 50) 50
  revert pixel
  decide +kernel

end Nookobo.Switcher
