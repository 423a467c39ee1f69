import Nookobo.Semantics.Alternation
import Nookobo.Semantics.Run
import Nookobo.Shim.Video

/-!
# The left button as the browser sees it

Button events come from two places: a finger on the page, whose press and lift are
passed on one by one, and `simulate_click`, which queues a press and a release at
once. `pointer_exact` says along which schedules the two together alternate: those
on which every lift finds the keyboard as its press left it, up for a press the
shim kept to itself and off for one it passed on, and no click is simulated while
a finger is down on the page.
-/

namespace Nookobo.Shim

open Nookobo.Semantics Nookobo.Text

/-- `SDL_MOUSEBUTTONDOWN` and `SDL_MOUSEBUTTONUP`. -/
inductive Button where
  | down
  | up
deriving DecidableEq, Repr

/-- The button change a queued event is, if it is one. -/
def Event.button? : Event → Option Button
  | .mouseButtonDown _ _ => some .down
  | .mouseButtonUp _ _ => some .up
  | _ => none

/-- The part of the shim's state that decides about button events. -/
structure Pointer where
  buttons : List Button
  touchDown : Bool
deriving DecidableEq, Repr

/-- A press and a release queued together. -/
def Pointer.click (pointer : Pointer) : Pointer :=
  { pointer with buttons := pointer.buttons ++ [.down, .up] }

namespace State

/-- The left-button events queued so far, and whether a finger is down. -/
def pointer (state : State) : Pointer where
  buttons := state.events.filterMap Event.button?
  touchDown := state.touchDown

/-! ## Operations without button events -/

section Quiet

variable (state : State) (font : Font)

/-- Queueing events adds exactly their button changes to what the browser has seen. -/
theorem pointer_queue (events : List Event) :
    (state.queue events).pointer =
      { state.pointer with
        buttons := state.pointer.buttons ++ events.filterMap Event.button? } := by
  simp [pointer, queue]

/-- Drawing leaves the pointer alone. -/
@[simp] theorem pointer_draw (layer : Layer UInt16) :
    (state.draw layer).pointer = state.pointer := rfl

/-- A refresh of the panel leaves the pointer alone. -/
@[simp] theorem pointer_refresh (mode : Refresh) (left top width height : Int) :
    (state.refresh mode left top width height).pointer = state.pointer := rfl

/-- A key for the page is no button. -/
@[simp] theorem pointer_oskInjectKey (sym unicode : Nat) :
    (state.oskInjectKey sym unicode).pointer = state.pointer := by
  rw [oskInjectKey, pointer_queue]
  simp [List.filterMap_cons, Event.button?]

/-- A control key for the page is no button. -/
@[simp] theorem pointer_sendCtrlKey (sym unicode : Nat) :
    (state.sendCtrlKey sym unicode).pointer = state.pointer := by
  rw [sendCtrlKey, pointer_queue]
  simp [List.filterMap_cons, Event.button?]

/-- A simulated click is a press and a release at once. -/
@[simp] theorem pointer_simulateClick (x y : Int) :
    (state.simulateClick x y).pointer = state.pointer.click := by
  rw [simulateClick, pointer_queue]
  simp [List.filterMap_cons, Event.button?, Pointer.click]

/-- A key sent several times is no button. -/
@[simp] theorem pointer_repeatKey (times sym unicode : Nat) :
    (state.repeatKey times sym unicode).pointer = state.pointer :=
  view_repeatKey pointer_oskInjectKey times sym unicode state

/-- Emptying the browser's address bar is no button. -/
@[simp] theorem pointer_clearBrowserUrlBar :
    state.clearBrowserUrlBar.pointer = state.pointer :=
  view_clearBrowserUrlBar pointer_oskInjectKey pointer_sendCtrlKey state

/-- Typing into the browser is no button. -/
@[simp] theorem pointer_typeText (text : List UInt8) :
    (state.typeText text).pointer = state.pointer :=
  view_typeText pointer_oskInjectKey text state

/-- Drawing the address bar is no button. -/
@[simp] theorem pointer_showUrl : (state.showUrl font).pointer = state.pointer := rfl

/-- Drawing the preview is no button. -/
@[simp] theorem pointer_showPreview : (state.showPreview font).pointer = state.pointer := rfl

/-- Redrawing the keyboard is no button. -/
@[simp] theorem pointer_redrawOsk : (state.redrawOsk font).pointer = state.pointer := rfl

/-- Presenting the keyboard is no button. -/
@[simp] theorem pointer_presentOsk : (state.presentOsk font).pointer = state.pointer := rfl

/-- Editing the address is no button. -/
@[simp] theorem pointer_editUrl (url : List UInt8) :
    (state.editUrl font url).pointer = state.pointer := rfl

/-- Redrawing a released key is no button. -/
@[simp] theorem pointer_releaseKey (key : OskKey) :
    (state.releaseKey font key).pointer = state.pointer := rfl

/-- Showing the keyboard is no button. -/
@[simp] theorem pointer_showOsk : (state.showOsk font).pointer = state.pointer := by
  unfold showOsk
  split <;> rfl

/-- Hiding the keyboard is no button. -/
@[simp] theorem pointer_hideOsk : state.hideOsk.pointer = state.pointer := by
  unfold hideOsk
  split <;> rfl

/-- Toggling the keyboard is no button. -/
@[simp] theorem pointer_toggleOsk : (state.toggleOsk font).pointer = state.pointer := by
  unfold toggleOsk
  split
  · exact pointer_hideOsk state
  · exact pointer_showOsk state font

/-- Showing the keyboard for a control of the page is no button. -/
@[simp] theorem pointer_showKeyboardForTextInput :
    (state.showKeyboardForTextInput font).pointer = state.pointer := by
  unfold showKeyboardForTextInput
  rw [pointer_showOsk]
  rfl

/-- A change of layout is no button. -/
@[simp] theorem pointer_switchMode (mode : OskMode) :
    (state.switchMode font mode).pointer = state.pointer := by
  unfold switchMode
  dsimp only
  split <;> rfl

/-- A text sent through the FIFO is no button. -/
@[simp] theorem pointer_handleText (payload : List UInt8) :
    (state.handleText font payload).pointer = state.pointer := by
  unfold handleText
  rw [pointer_typeText]
  split <;> rfl

/-- Refreshing the page is no button. -/
@[simp] theorem pointer_refreshPage (columns rows : Span) :
    (state.refreshPage columns rows).pointer = state.pointer := by
  unfold refreshPage
  dsimp only
  split <;> rfl

/-- Redrawing the address bar over the page is no button. -/
@[simp] theorem pointer_assertUrlBar (columns rows : Span) :
    (state.assertUrlBar font columns rows).pointer = state.pointer := by
  unfold assertUrlBar
  split <;> rfl

/-- Saving the page under the keyboard is no button. -/
@[simp] theorem pointer_saveUnderOsk (rows : Span) :
    (state.saveUnderOsk font rows).pointer = state.pointer := rfl

/-- A rectangle the browser reports is no button. -/
@[simp] theorem pointer_updateRect (rect : Rect) :
    (state.updateRect font rect).pointer = state.pointer := by
  unfold updateRect
  split
  · rfl
  · dsimp only
    split
    · split <;> simp
    · simp

/-- Nothing the browser does of itself moves the pointer. -/
@[simp] theorem pointer_browse (step : BrowserStep) :
    (state.browse font step).pointer = state.pointer := by
  simp [browse]

end Quiet

/-! ## Simulated clicks -/

section Clicks

variable (state : State) (font : Font)

/-- Giving the address the focus clicks into the browser's own bar, once. -/
@[simp] theorem pointer_focusUrl :
    (state.focusUrl font).pointer = state.pointer.click := by
  simp only [focusUrl, pointer_showOsk, pointer_oskInjectKey, pointer_simulateClick]
  rfl

/-- A key of the keyboard queues at most one click. -/
theorem pointer_pressKey (key : OskKey) :
    (state.pressKey font key).pointer = state.pointer ∨
      (state.pressKey font key).pointer = state.pointer.click := by
  unfold pressKey
  cases key.action with
  | hide => exact .inl (pointer_hideOsk state)
  | clear =>
      simp only [pointer_releaseKey, pressClear]
      split
      · refine .inr ?_
        simp only [pointer_clearBrowserUrlBar, pointer_simulateClick]
        rfl
      · refine .inl ?_
        simp
  | shift => exact .inl rfl
  | symbols => exact .inl rfl
  | lang => exact .inl rfl
  | backspace =>
      refine .inl ?_
      simp only [pointer_releaseKey, pressBackspace, pointer_oskInjectKey]
      split <;> rfl
  | space =>
      refine .inl ?_
      simp only [pointer_releaseKey, pressSpace, pointer_oskInjectKey]
      split <;> rfl
  | enter =>
      simp only [pressEnter, pointer_hideOsk, pointer_oskInjectKey]
      split
      · refine .inr ?_
        simp only [pointer_typeText, pointer_clearBrowserUrlBar, pointer_simulateClick]
        rfl
      · exact .inl rfl
  | dotcom =>
      refine .inl ?_
      simp only [pointer_releaseKey, pressDotcom]
      rw [view_foldl fun state byte => pointer_oskInjectKey state _ _]
      split <;> rfl
  | char =>
      have typed : (state.pressChar font key).pointer = state.pointer := by
        simp only [pressChar, pointer_oskInjectKey]
        split <;> rfl
      dsimp only
      split
      · exact .inl typed
      · exact .inl typed

/-- A tap inside the keyboard leaves the pointer or makes one whole click. -/
theorem pointer_handleOskTouch (x y : Int) :
    (state.handleOskTouch font x y).pointer = state.pointer ∨
      (state.handleOskTouch font x y).pointer = state.pointer.click := by
  unfold handleOskTouch
  split
  · exact .inl rfl
  · apply pointer_pressKey

end Clicks

/-- The lines from the FIFO that are answered with a click. -/
def clicksOnCommand (cmd : List UInt8) : Bool :=
  match fifoCommand cmd with
  | some .back | some .focusUrl | some (.url _) | some (.click _ _) => true
  | _ => false

/-- The buttons that are answered with a click: Home, and Top Right while the
keyboard is off. -/
def clicksOnKey (ev : InputEvent) (state : State) : Bool :=
  ev.type == 1 && ev.value == 1 && (ev.code == 102 || ev.code == 193 && !state.oskActive)

/-- A line from the FIFO is one whole click when it is a line that clicks, and no button else. -/
theorem pointer_handleFifoCommand (font : Font) (cmd : List UInt8) (state : State) :
    (state.handleFifoCommand font cmd).pointer =
      if clicksOnCommand cmd then state.pointer.click else state.pointer := by
  unfold handleFifoCommand clicksOnCommand
  rcases fifoCommand cmd with _ | command
  · rfl
  · cases command with
    | inject sym unicode => exact pointer_oskInjectKey state sym unicode
    | osk => exact pointer_toggleOsk state font
    | lang => exact pointer_switchMode state font _
    | shift => exact pointer_switchMode state font _
    | sym => exact pointer_switchMode state font _
    | back => exact pointer_simulateClick state 25 48
    | focusUrl => exact pointer_focusUrl state font
    | text payload => exact pointer_handleText state font payload
    | url payload =>
        simp only [handleUrl, pointer_oskInjectKey, pointer_typeText, pointer_clearBrowserUrlBar,
          pointer_simulateClick]
        rfl
    | click x y =>
        simp only [handleClick, pointer_simulateClick]
        rfl

/-- A key of the device is one whole click when it is a key that clicks, and no button else. -/
theorem pointer_handleKeyEvent (font : Font) (ev : InputEvent) (state : State) :
    (state.handleKeyEvent font ev).pointer =
      if state.clicksOnKey ev then state.pointer.click else state.pointer := by
  unfold handleKeyEvent clicksOnKey
  by_cases press : ev.type = 1 ∧ ev.value = 1
  · rw [if_pos press]
    by_cases top : ev.code = 193
    · cases active : state.oskActive with
      | true => simp [press, top]
      | false => simp [press, top]
    · by_cases home : ev.code = 102
      · simp [press, home]
      · simp only [press, top, home, beq_self_eq_true, Bool.and_self, Bool.true_and,
          beq_eq_false_iff_ne.mpr, ne_eq, not_false_eq_true, Bool.false_and, Bool.or_self,
          Bool.false_eq_true, if_false]
        split
        · exact pointer_oskInjectKey state _ _
        · split
          · exact pointer_oskInjectKey state _ _
          · split
            · exact pointer_toggleOsk state font
            · rfl
  · rw [if_neg press, if_neg]
    intro clicks
    simp only [Bool.and_eq_true, beq_iff_eq] at clicks
    exact press clicks.1

/-! ## Touch frames -/

/-- A press that is passed on to the browser: the keyboard is off, and the finger
lies on neither hotspot. -/
def pressesPage (state : State) : Bool :=
  !state.oskActive && !state.onUrlBar && !state.onCorner

/-- A touch that begins on the page queues its press. -/
theorem pointer_regularTouch_press {state : State} (pressing : state.pressing = true) :
    state.regularTouch.pointer = ⟨state.pointer.buttons ++ [.down], true⟩ := by
  unfold regularTouch
  dsimp only
  rw [if_pos pressing]
  simp [pointer, queue, List.filterMap_cons, Event.button?]

/-- A touch that ends on the page queues its release. -/
theorem pointer_regularTouch_lift {state : State} (lifting : state.lifting = true) :
    state.regularTouch.pointer = ⟨state.pointer.buttons ++ [.up], false⟩ := by
  have still : ¬ state.pressing = true := by
    simp only [State.lifting, State.pressing] at lifting ⊢
    grind
  unfold regularTouch
  dsimp only
  rw [if_neg still, if_pos lifting]
  simp [pointer, queue, Event.button?]

/-- A touch that only moves queues no button. -/
theorem pointer_regularTouch_move {state : State} (still : state.pressing = false)
    (held : state.lifting = false) : state.regularTouch.pointer = state.pointer := by
  unfold regularTouch
  dsimp only
  rw [if_neg (by simp [still]), if_neg (by simp [held])]
  split
  · simp [pointer, queue, Event.button?]
  · rfl

/-- A contact that ends is not one that begins. -/
theorem not_pressing_of_lifting {state : State} (lifting : state.lifting = true) :
    state.pressing = false := by
  simp only [State.lifting, Bool.and_eq_true, Bool.not_eq_true'] at lifting
  simp [State.pressing, lifting.1]

/-- A press on the page is passed on. -/
theorem pointer_handleFrame_pressesPage (font : Font) {state : State}
    (pressing : state.pressing = true) (page : state.pressesPage = true) :
    (state.handleFrame font).pointer = ⟨state.pointer.buttons ++ [.down], true⟩ := by
  simp only [pressesPage, Bool.and_eq_true, Bool.not_eq_true'] at page
  obtain ⟨⟨off, bar⟩, corner⟩ := page
  unfold handleFrame touchPage
  simp only [off, bar, corner, Bool.false_and, Bool.false_eq_true, if_false]
  exact pointer_regularTouch_press pressing

/-- A press that is not passed on leaves no event, or a click in its place. -/
def KeepsPress (before after : Pointer) : Prop :=
  after = ⟨before.buttons, true⟩ ∨ after = ⟨before.buttons ++ [.down, .up], true⟩

/-- A press inside the keyboard is kept from the page. -/
theorem keepsPress_touchOnOsk (font : Font) {state : State}
    (pressing : state.pressing = true) :
    KeepsPress state.pointer (state.touchOnOsk font).pointer := by
  unfold touchOnOsk
  rw [if_pos pressing]
  apply pointer_handleOskTouch

/-- A press above the keyboard, which hides it, is kept from the page. -/
theorem keepsPress_touchAboveOsk {state : State} (pressing : state.pressing = true) :
    KeepsPress state.pointer state.touchAboveOsk.pointer := by
  have hidden : { state.hideOsk with touchDown := true }.pointer =
      ⟨state.pointer.buttons, true⟩ := by
    have same := congrArg Pointer.buttons (pointer_hideOsk state)
    simp only [pointer] at same ⊢
    rw [same]
  unfold touchAboveOsk
  rw [if_pos pressing]
  dsimp only
  split
  · refine .inr ?_
    rw [pointer_simulateClick, hidden]
    rfl
  · exact .inl hidden

/-- A press on the address bar or in the corner is kept from the page, but for a whole click. -/
theorem keepsPress_touchPage (font : Font) {state : State} (pressing : state.pressing = true)
    (hotspot : state.onUrlBar = true ∨ state.onCorner = true) :
    KeepsPress state.pointer (state.touchPage font).pointer := by
  unfold touchPage
  split
  · refine .inr ?_
    rw [pointer_focusUrl]
    rfl
  · next bar =>
    have bar : state.onUrlBar = false := by simpa [pressing] using bar
    have corner : state.onCorner = true := by simpa [bar] using hotspot
    rw [if_pos (by simp [corner, pressing])]
    refine .inl ?_
    rw [pointer_showOsk]
    rfl

/-- Any press but one on the page is kept. -/
theorem keepsPress_handleFrame (font : Font) {state : State}
    (pressing : state.pressing = true) (kept : state.pressesPage = false) :
    KeepsPress state.pointer (state.handleFrame font).pointer := by
  unfold handleFrame
  cases active : state.oskActive with
  | true =>
      rw [if_pos rfl]
      split
      · exact keepsPress_touchOnOsk font pressing
      · exact keepsPress_touchAboveOsk pressing
  | false =>
      rw [if_neg (by decide)]
      apply keepsPress_touchPage font pressing
      simp only [pressesPage, active, Bool.not_false, Bool.true_and, Bool.and_eq_false_iff,
        Bool.not_eq_false'] at kept
      exact kept

/-- A lift is passed on exactly while the keyboard is off. -/
theorem pointer_handleFrame_lift (font : Font) {state : State}
    (lifting : state.lifting = true) :
    (state.handleFrame font).pointer =
      ⟨state.pointer.buttons ++ (if state.oskActive then [] else [.up]), false⟩ := by
  have still := not_pressing_of_lifting lifting
  unfold handleFrame
  cases active : state.oskActive with
  | true =>
      rw [if_pos rfl, if_pos rfl, List.append_nil]
      split
      · simp only [touchOnOsk, still, lifting, Bool.false_eq_true, if_false, if_true]
        rfl
      · simp only [touchAboveOsk, still, lifting, Bool.false_eq_true, if_false, if_true]
        rfl
  | false =>
      rw [if_neg (by decide), if_neg (by decide)]
      simp only [touchPage, still, Bool.and_false, Bool.false_eq_true, if_false]
      exact pointer_regularTouch_lift lifting

/-- A frame in which no contact begins or ends queues no button. -/
theorem pointer_handleFrame_move (font : Font) {state : State}
    (still : state.pressing = false) (held : state.lifting = false) :
    (state.handleFrame font).pointer = state.pointer := by
  have moved := pointer_regularTouch_move still held
  unfold handleFrame
  split
  · split
    · simp only [touchOnOsk, still, held, Bool.false_eq_true, if_false]
    · simpa only [touchAboveOsk, still, held, Bool.false_eq_true, if_false] using moved
  · simpa only [touchPage, still, Bool.and_false, Bool.false_eq_true, if_false] using moved

end State

/-! ## Sessions -/

/-- The end of a touch frame. -/
def InputEvent.isReport (ev : InputEvent) : Bool := ev.type == 0 && ev.code == 0

/-- Between two reports a touch event only fills in the frame. -/
theorem State.pointer_handleTouchEvent (font : Font) (state : State) {ev : InputEvent}
    (open_ : ev.isReport = false) :
    (state.handleTouchEvent font ev).pointer = state.pointer := by
  have noReport : ¬ (ev.type = 0 ∧ ev.code = 0) := by
    simpa [InputEvent.isReport] using open_
  unfold handleTouchEvent
  split
  · split
    · rfl
    · split <;> rfl
  · split
    · rfl
    · rfl

/-- A report is what acts on the frame gathered before it. -/
theorem State.handleTouchEvent_report (font : Font) (state : State) {ev : InputEvent}
    (report : ev.isReport = true) :
    state.handleTouchEvent font ev = state.handleFrame font := by
  simp only [InputEvent.isReport, Bool.and_eq_true, beq_iff_eq] at report
  simp [handleTouchEvent, report]

/-- The shim, and whether the finger that is down came down on the page. -/
structure Contact where
  state : State
  onPage : Bool := false

namespace Contact

/-- One step, noting where a press came down. -/
def step (font : Font) (contact : Contact) (label : Label) : Contact where
  state := contact.state.step font label
  onPage :=
    match label with
    | .touch ev =>
        if ev.isReport && contact.state.pressing then contact.state.pressesPage
        else contact.onPage
    | _ => contact.onPage

/-- The shim from its start, over every order of frames, keys and lines. -/
def machine (font : Font) (url : List UInt8) : Machine Contact Label where
  initial := { state := .setVideoMode font url }
  step := step font

/-- The button events alternate, and none is left down without a finger. -/
def PointerOk (contact : Contact) : Prop :=
  Alternates .down .up contact.state.pointer.buttons ∧
    (contact.state.touchDown = false →
      contact.state.pointer.buttons.getLast? ≠ some .down)

/-- A finger is down whose press was passed on. -/
def pressed (contact : Contact) : Bool := contact.state.touchDown && contact.onPage

/-- The lift of a finger finds the keyboard off exactly if its press was passed on,
and no click is simulated while such a finger is down. -/
def Matched (contact : Contact) : Label → Prop
  | .touch ev =>
      ev.isReport = true → contact.state.lifting = true →
        (contact.state.oskActive = false ↔ contact.onPage = true)
  | .key ev => contact.state.clicksOnKey ev = true → contact.pressed = false
  | .fifo cmd => State.clicksOnCommand cmd = true → contact.pressed = false
  | .showKeyboard => True
  | .browser _ => True

/-- The button event that continues the stream. -/
def next (pressed : Bool) : Button := if pressed then .up else .down

/-- Before every step the stream alternates and ends with a press exactly while a
finger is down whose press was passed on. -/
structure InStep (contact : Contact) : Prop where
  alternates : Alternates .down .up contact.state.pointer.buttons
  level : expected .down .up contact.state.pointer.buttons = next contact.pressed

namespace InStep

variable {contact after : Contact}

/-- Read from the release on, the stream ends at the opposite level. -/
theorem mirror (inStep : contact.InStep) :
    expected .up .down contact.state.pointer.buttons = next (!contact.pressed) := by
  have level := inStep.level
  rcases expected_eq_or Button.down .up contact.state.pointer.buttons with
    ⟨same, mirror⟩ | ⟨same, mirror⟩
  · rw [mirror]
    rw [same] at level
    cases pressed : contact.pressed <;> simp_all [next]
  · rw [mirror]
    rw [same] at level
    cases pressed : contact.pressed <;> simp_all [next]

/-- A batch of events fits when it picks up at the level the finger has left. -/
theorem alternates_append_iff (inStep : contact.InStep) (batch : List Button) :
    Alternates .down .up (contact.state.pointer.buttons ++ batch) ↔
      Alternates (next contact.pressed) (next !contact.pressed) batch := by
  rw [alternates_append, inStep.level, inStep.mirror, and_iff_right inStep.alternates]

/-- A batch that alternates from where the pointer stands keeps the contact in step. -/
theorem extend (inStep : contact.InStep) (batch : List Button)
    (buttons : after.state.pointer.buttons = contact.state.pointer.buttons ++ batch)
    (fits : Alternates (next contact.pressed) (next !contact.pressed) batch)
    (level : expected (next contact.pressed) (next !contact.pressed) batch =
      next after.pressed) : after.InStep where
  alternates := by rw [buttons, inStep.alternates_append_iff]; exact fits
  level := by rw [buttons, expected_append, inStep.level, inStep.mirror, level]

/-- A step that queues no button keeps the contact in step. -/
theorem same (inStep : contact.InStep) (pointer : after.state.pointer = contact.state.pointer)
    (pressed : after.pressed = contact.pressed) : after.InStep where
  alternates := by rw [pointer]; exact inStep.alternates
  level := by rw [pointer, pressed]; exact inStep.level

/-- In step, the events alternate and none is left down without a finger. -/
theorem pointerOk (inStep : contact.InStep) : contact.PointerOk := by
  refine ⟨inStep.alternates, ?_⟩
  intro up last
  have level := inStep.level
  rw [(getLast?_eq_some_first_iff (by decide) inStep.alternates).mp last] at level
  simp [next, pressed, up] at level

/-- A click simulated while no press is open. -/
theorem click (inStep : contact.InStep) (released : contact.pressed = false)
    (pointer : after.state.pointer = contact.state.pointer.click)
    (pressed : after.pressed = false) : after.InStep := by
  refine inStep.extend [.down, .up] ?_ ?_ ?_
  · rw [pointer]
    rfl
  · simp [released, next]
  · simp [released, pressed, next]

end InStep

/-! ### One step -/

section Step

variable {contact : Contact} (font : Font)

/-- Whether a passed-on press is open depends on the pointer and on `onPage` only. -/
theorem pressed_eq {after : Contact}
    (pointer : after.state.pointer = contact.state.pointer)
    (onPage : after.onPage = contact.onPage) : after.pressed = contact.pressed := by
  have down := congrArg Pointer.touchDown pointer
  simp only [State.pointer] at down
  simp [pressed, down, onPage]

/-- A step that leaves the pointer alone, or clicks while no press is open. -/
theorem InStep.quietOrClick {after : Contact} {clicks : Bool} (inStep : contact.InStep)
    (pointer : after.state.pointer =
      if clicks then contact.state.pointer.click else contact.state.pointer)
    (onPage : after.onPage = contact.onPage)
    (released : clicks = true → contact.pressed = false) : after.InStep := by
  cases clicks with
  | false => exact inStep.same pointer (pressed_eq pointer onPage)
  | true =>
      have down := congrArg Pointer.touchDown pointer
      have open_ := released rfl
      refine inStep.click open_ pointer ?_
      simp only [if_true, Pointer.click, State.pointer] at down
      simpa [pressed, down, onPage] using open_

/-- A touch that begins keeps the contact in step, wherever it begins. -/
theorem InStep.press (inStep : contact.InStep) {ev : InputEvent} (report : ev.isReport = true)
    (pressing : contact.state.pressing = true) : (contact.step font (.touch ev)).InStep := by
  have frame := State.handleTouchEvent_report font contact.state report
  have up : contact.state.touchDown = false := by
    simp only [State.pressing, Bool.and_eq_true, Bool.not_eq_true'] at pressing
    exact pressing.2
  have released : contact.pressed = false := by simp [pressed, up]
  have onPage : (contact.step font (.touch ev)).onPage = contact.state.pressesPage := by
    simp [step, report, pressing]
  have pointer : (contact.step font (.touch ev)).state.pointer =
      (contact.state.handleFrame font).pointer := by
    simp [step, State.step, frame]
  cases page : contact.state.pressesPage with
  | true =>
      rw [State.pointer_handleFrame_pressesPage font pressing page] at pointer
      have down : (contact.step font (.touch ev)).state.touchDown = true :=
        congrArg Pointer.touchDown pointer
      refine inStep.extend [.down] (congrArg Pointer.buttons pointer) ?_ ?_
      · simp [released, next]
      · simp [next, pressed, up, down, onPage, page]
  | false =>
      have kept : (contact.step font (.touch ev)).pressed = false := by
        simp [pressed, onPage, page]
      rcases State.keepsPress_handleFrame font pressing page with quiet | clicked
      · rw [quiet] at pointer
        refine inStep.extend [] ?_ trivial ?_
        · rw [pointer, List.append_nil]
        · rw [kept, released]
          rfl
      · rw [clicked] at pointer
        refine inStep.extend [.down, .up] (congrArg Pointer.buttons pointer) ?_ ?_
        · simp [released, next]
        · rw [kept, released]
          rfl

/-- A touch that ends releases the button exactly when the keyboard is down. -/
theorem lift_pointer {ev : InputEvent} (report : ev.isReport = true)
    (lifting : contact.state.lifting = true) :
    (contact.step font (.touch ev)).state.pointer =
      ⟨contact.state.pointer.buttons ++ (if contact.state.oskActive then [] else [.up]),
        false⟩ := by
  have frame := State.handleTouchEvent_report font contact.state report
  simp only [step, State.step, frame]
  exact State.pointer_handleFrame_lift font lifting

/-- As a finger lifts, a passed-on press is open exactly if it came down on the page. -/
theorem pressed_of_lifting (lifting : contact.state.lifting = true) :
    contact.pressed = contact.onPage := by
  simp only [State.lifting, Bool.and_eq_true] at lifting
  simp [pressed, lifting.2]

/-- A touch that ends where it began keeps the contact in step. -/
theorem InStep.lift (inStep : contact.InStep) {ev : InputEvent} (report : ev.isReport = true)
    (lifting : contact.state.lifting = true)
    (matched : contact.state.oskActive = false ↔ contact.onPage = true) :
    (contact.step font (.touch ev)).InStep := by
  have pointer := contact.lift_pointer font report lifting
  have open_ := pressed_of_lifting lifting
  have up : (contact.step font (.touch ev)).state.touchDown = false :=
    congrArg Pointer.touchDown pointer
  have released : (contact.step font (.touch ev)).pressed = false := by simp [pressed, up]
  refine inStep.extend _ (congrArg Pointer.buttons pointer) ?_ ?_
  · cases active : contact.state.oskActive with
    | true => exact trivial
    | false =>
        have onPage := matched.mp active
        simp [open_, onPage, next]
  · cases active : contact.state.oskActive with
    | true =>
        have onPage : contact.onPage = false := by
          simpa [active] using matched
        rw [released, open_, onPage]
        rfl
    | false =>
        have onPage := matched.mp active
        rw [released, open_, onPage]
        rfl

/-- An event of the panel keeps the contact in step, when it is matched. -/
theorem InStep.touch (inStep : contact.InStep) {ev : InputEvent}
    (matched : contact.Matched (.touch ev)) : (contact.step font (.touch ev)).InStep := by
  cases report : ev.isReport with
  | false =>
      have pointer := State.pointer_handleTouchEvent font contact.state report
      refine inStep.same pointer (pressed_eq pointer ?_)
      simp [step, report]
  | true =>
      cases pressing : contact.state.pressing with
      | true => exact inStep.press font report pressing
      | false =>
          cases lifting : contact.state.lifting with
          | true => exact inStep.lift font report lifting (matched report lifting)
          | false =>
              have frame := State.handleTouchEvent_report font contact.state report
              have pointer : (contact.step font (.touch ev)).state.pointer =
                  contact.state.pointer := by
                simp only [step, State.step, frame]
                exact State.pointer_handleFrame_move font pressing lifting
              refine inStep.same pointer (pressed_eq pointer ?_)
              simp [step, pressing]

/-- Every matched event keeps the contact in step. -/
theorem InStep.step (inStep : contact.InStep) (label : Label)
    (matched : contact.Matched label) : (contact.step font label).InStep := by
  cases label with
  | touch ev => exact inStep.touch font matched
  | key ev =>
      exact inStep.quietOrClick (State.pointer_handleKeyEvent font ev contact.state) rfl matched
  | fifo cmd =>
      exact inStep.quietOrClick (State.pointer_handleFifoCommand font cmd contact.state) rfl
        matched
  | showKeyboard =>
      have pointer := State.pointer_showKeyboardForTextInput contact.state font
      exact inStep.same pointer (pressed_eq pointer rfl)
  | browser step =>
      have pointer := State.pointer_browse contact.state font step
      exact inStep.same pointer (pressed_eq pointer rfl)

/-- A click on top of an open press is a second press in a row. -/
theorem InStep.clickOnPress {after : Contact} (inStep : contact.InStep)
    (pointer : after.state.pointer = contact.state.pointer.click)
    (open_ : contact.pressed = true) : ¬ after.PointerOk := by
  rintro ⟨alternates, _⟩
  rw [pointer, Pointer.click, inStep.alternates_append_iff, open_] at alternates
  exact absurd alternates.1 (by decide)

/-- A lift that finds the keyboard otherwise shows at once: a release nobody
pressed for, or a press that stays open. -/
theorem InStep.liftMissed (inStep : contact.InStep) {ev : InputEvent}
    (report : ev.isReport = true) (lifting : contact.state.lifting = true)
    (missed : ¬ (contact.state.oskActive = false ↔ contact.onPage = true)) :
    ¬ (contact.step font (.touch ev)).PointerOk := by
  rintro ⟨alternates, released⟩
  have pointer := contact.lift_pointer font report lifting
  have open_ := pressed_of_lifting lifting
  have level := inStep.level
  rw [pointer] at alternates released
  cases active : contact.state.oskActive with
  | true =>
      have onPage : contact.onPage = true := by
        simpa [active] using missed
      simp only [active, if_true, List.append_nil] at released
      rw [open_, onPage] at level
      exact released (congrArg Pointer.touchDown pointer)
        ((getLast?_eq_some_first_iff (by decide) inStep.alternates).mpr level)
  | false =>
      have onPage : contact.onPage = false := by
        simpa [active] using missed
      simp only [active, Bool.false_eq_true, if_false] at alternates
      rw [inStep.alternates_append_iff, open_, onPage] at alternates
      exact absurd alternates.1 (by decide)

/-- A step that is not matched leaves a stream the browser cannot read. -/
theorem InStep.broken (inStep : contact.InStep) (label : Label)
    (missed : ¬ contact.Matched label) : ¬ (contact.step font label).PointerOk := by
  cases label with
  | touch ev =>
      simp only [Matched, not_forall] at missed
      obtain ⟨report, lifting, missed⟩ := missed
      exact inStep.liftMissed font report lifting missed
  | key ev =>
      simp only [Matched, not_forall, Bool.not_eq_false] at missed
      obtain ⟨clicks, open_⟩ := missed
      have pointer := State.pointer_handleKeyEvent font ev contact.state
      rw [if_pos clicks] at pointer
      exact inStep.clickOnPress pointer open_
  | fifo cmd =>
      simp only [Matched, not_forall, Bool.not_eq_false] at missed
      obtain ⟨clicks, open_⟩ := missed
      have pointer := State.pointer_handleFifoCommand font cmd contact.state
      rw [if_pos clicks] at pointer
      exact inStep.clickOnPress pointer open_
  | showKeyboard => exact absurd trivial missed
  | browser step => exact absurd trivial missed

end Step

end Contact

/-- The browser sees alternating button events along exactly those schedules on
which every lift finds the keyboard as its press left it and no click is simulated
under a finger on the page. -/
theorem pointer_exact (font : Font) (url : List UInt8) (labels : List Label) :
    (Contact.machine font url).Always Contact.PointerOk (Contact.machine font url).initial
        labels ↔
      (Contact.machine font url).StepsMeet Contact.Matched (Contact.machine font url).initial
        labels := by
  have start : (Contact.machine font url).initial.InStep := ⟨trivial, rfl⟩
  refine Machine.always_iff_stepsMeet_of_all Contact.InStep ?_ ?_ ?_ start labels
  · intro contact inStep
    exact inStep.pointerOk
  · intro contact label inStep matched
    exact inStep.step font label matched
  · intro contact label inStep missed
    exact inStep.broken font label missed

/-- A tap on the "Hide Kbd" key: the press takes the keyboard down, and the lift
reaches the browser as a release nobody pressed for. -/
theorem pointer_hide_key_release :
    ¬ Alternates .down .up
      ((Contact.machine ⟨fun _ _ => 0, fun _ _ => 0⟩ (ascii "https://lite.duckduckgo.com")).run
        (Contact.machine ⟨fun _ _ => 0, fun _ _ => 0⟩
          (ascii "https://lite.duckduckgo.com")).initial
        [.showKeyboard, .touch ⟨3, 0x35, 1300⟩, .touch ⟨3, 0x36, 1303⟩, .touch ⟨1, 0x14a, 1⟩,
          .touch ⟨0, 0, 0⟩, .touch ⟨1, 0x14a, 0⟩, .touch ⟨0, 0, 0⟩]).state.pointer.buttons := by
  decide

end Nookobo.Shim
