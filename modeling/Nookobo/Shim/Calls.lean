import Nookobo.Shim.Video

/-!
# The shim's calls

What one step of the shim does to the framebuffer and to the address, as the list of calls it
makes: the drawing routines, the restoring of the rows under the keyboard, and the accesses to
`g_current_url`. `canvas_step` says that the calls of a step lead from the framebuffer and address
before it to those after it; other readings of the same calls (the labels that are painted, the
bytes that are stored) can then be added to the model without touching it.
-/

namespace Nookobo.Shim

open Nookobo.Semantics Nookobo.Text

/-- What calls work on: the framebuffer and the address. -/
structure Canvas where
  frame : Frame UInt16
  url : List UInt8

/-- The calls of the shim that change the frame buffer or the address, with what each is given. -/
inductive ScreenCall where
  /-- `draw_url_bar_overlay`. -/
  | urlBar
  /-- `draw_osk_input_preview`. -/
  | preview (lang : Language) (focused : Bool)
  /-- `draw_osk`. -/
  | osk (mode : OskMode) (focused : Bool)
  /-- `draw_osk_key`. -/
  | oskKey (mode : OskMode) (key : OskKey) (pressed : Bool)
  /-- The rows of the keyboard copied back in `hide_osk`. -/
  | restore (backup : Frame UInt16)
  /-- The browser's own pixels. -/
  | pixels (layer : Layer UInt16)
  /-- The address filled with zeros. -/
  | clear
  /-- A NUL over the last byte of the address. -/
  | chop
  /-- `strcat` of a string. -/
  | append (text : List UInt8)
  /-- `strcat` of the bytes of a code point. -/
  | appendChar (codePoint : Nat)
  /-- The address replaced by the target of the Enter key. -/
  | enter
  /-- `strncpy` of a string over the address. -/
  | copy (text : List UInt8)

namespace ScreenCall

/-- What a call draws; the address is written on two of the pictures. -/
def layer (font : Font) (url : List UInt8) : ScreenCall → Layer UInt16
  | .urlBar => drawUrlBarOverlay font url
  | .preview lang focused => drawOskInputPreview font lang focused url
  | .osk mode focused => drawOsk font mode focused url
  | .oskKey mode key pressed => drawOskKey font mode key pressed
  | .restore backup => fun row column =>
      if State.inOskRows row then some (backup row column) else none
  | .pixels layer => layer
  | _ => .blank

/-- What a call makes of the address. -/
def edit (url : List UInt8) : ScreenCall → List UInt8
  | .clear => []
  | .chop => url.dropLast
  | .append text => url ++ text
  | .appendChar codePoint => url ++ State.charBytes codePoint
  | .enter => State.enterTarget url
  | .copy text => text.take (State.urlSize - 1)
  | _ => url

/-- What one call leaves on the screen and in the address buffer. -/
def run (font : Font) (canvas : Canvas) (call : ScreenCall) : Canvas where
  frame := canvas.frame.overlay (call.layer font canvas.url)
  url := call.edit canvas.url

/-- Some calls in a row. -/
def runAll (font : Font) (calls : List ScreenCall) (canvas : Canvas) : Canvas :=
  calls.foldl (run font) canvas

/-- The first call of a list runs before the rest of it. -/
theorem runAll_cons (font : Font) (call : ScreenCall) (rest : List ScreenCall) (canvas : Canvas) :
    runAll font (call :: rest) canvas = runAll font rest (call.run font canvas) := rfl

/-- Running two lists of calls one after the other is running their concatenation. -/
theorem runAll_append (font : Font) (first second : List ScreenCall) (canvas : Canvas) :
    runAll font (first ++ second) canvas = runAll font second (runAll font first canvas) :=
  List.foldl_append

/-- Over a list of calls the address sees its edits only; no drawing touches it. -/
theorem runAll_url (font : Font) (calls : List ScreenCall) (canvas : Canvas) :
    (runAll font calls canvas).url = calls.foldl edit canvas.url := by
  induction calls generalizing canvas with
  | nil => rfl
  | cons call rest ih =>
      rw [runAll_cons, ih]
      rfl

end ScreenCall

/-- What decides how the keyboard looks and acts. -/
structure Keyboard where
  active : Bool
  mode : OskMode
  keys : List OskKey
  focused : Bool

/-! ## The calls of each operation -/

namespace State

variable (state : State)

/-- The part of the shim's state that its calls act on: the frame and the address. -/
def canvas (state : State) : Canvas := ⟨state.frame, state.url⟩

/-- The address edited, and preview and address bar drawn again. -/
def editCalls (edit : ScreenCall) : List ScreenCall :=
  [edit, .preview state.mode.lang state.urlFocused, .urlBar]

/-- What `show_osk` calls: nothing when the keyboard is already up. -/
def showOskCalls : List ScreenCall :=
  if state.oskActive then [] else [.osk state.mode state.urlFocused]

/-- What `hide_osk` calls: the backup comes back, when the keyboard was up. -/
def hideOskCalls : List ScreenCall := if state.oskActive then [.restore state.backup] else []

/-- What `toggle_osk` calls: those of `hide_osk` or of `show_osk`. -/
def toggleOskCalls : List ScreenCall :=
  if state.oskActive then state.hideOskCalls else state.showOskCalls

/-- The keyboard drawn in a new mode, when it is up. -/
def switchModeCalls (mode : OskMode) : List ScreenCall :=
  if state.oskActive then [.osk mode state.urlFocused] else []

/-- What the Clear key calls, by which field has the focus. -/
def pressClearCalls : List ScreenCall :=
  if state.urlFocused then state.editCalls .clear else [.preview state.mode.lang false]

/-- What the Backspace key calls, by which field has the focus. -/
def pressBackspaceCalls : List ScreenCall :=
  if state.urlFocused && !state.url.isEmpty then state.editCalls .chop else []

/-- What the Space key calls, by which field has the focus. -/
def pressSpaceCalls : List ScreenCall :=
  if state.urlFocused && state.url.length < urlSize - 2 then state.editCalls (.append [32]) else []

/-- What the Enter key calls; the keyboard is hidden last. -/
def pressEnterCalls : List ScreenCall :=
  (if state.urlFocused && !state.url.isEmpty then [.enter, .urlBar] else []) ++ state.hideOskCalls

/-- What the `.com` key calls, by which field has the focus. -/
def pressDotcomCalls : List ScreenCall :=
  if state.urlFocused && state.url.length < urlSize - 6 then
    state.editCalls (.append (if state.mode.lang = .english then ascii ".com" else ascii ".ru"))
  else []

/-- What a letter key calls, by which field has the focus. -/
def pressCharCalls (key : OskKey) : List ScreenCall :=
  if state.urlFocused && state.url.length < urlSize - 6 then
    state.editCalls (.appendChar (key.unicode state.mode))
  else []

/-- The calls of the `switch` of `handle_osk_touch`, and of what follows it. -/
def pressKeyCalls (key : OskKey) : List ScreenCall :=
  match key.action with
  | .hide => state.hideOskCalls
  | .clear => state.pressClearCalls ++ [.oskKey state.mode key false]
  | .shift => [.osk { state.mode with shift := !state.mode.shift } state.urlFocused]
  | .symbols => [.osk { state.mode with symbols := !state.mode.symbols } state.urlFocused]
  | .lang => [.osk { state.mode with lang := state.mode.lang.toggle } state.urlFocused]
  | .backspace => state.pressBackspaceCalls ++ [.oskKey state.mode key false]
  | .space => state.pressSpaceCalls ++ [.oskKey state.mode key false]
  | .enter => state.pressEnterCalls
  | .dotcom => state.pressDotcomCalls ++ [.oskKey state.mode key false]
  | .char =>
      state.pressCharCalls key ++
        [if state.mode.shift then .osk { state.mode with shift := false } state.urlFocused
          else .oskKey state.mode key false]

/-- What a tap inside the keyboard calls: those of the key found there, if one is. -/
def handleOskTouchCalls (x y : Int) : List ScreenCall :=
  match state.keys.find? fun key => key.contains x y with
  | none => []
  | some key => .oskKey state.mode key true :: state.pressKeyCalls key

/-- What one line read from the FIFO calls. -/
def handleFifoCommandCalls (cmd : List UInt8) : List ScreenCall :=
  match fifoCommand cmd with
  | some .osk => state.toggleOskCalls
  | some .lang => state.switchModeCalls { state.mode with lang := state.mode.lang.toggle }
  | some .shift => state.switchModeCalls { state.mode with shift := !state.mode.shift }
  | some .sym => state.switchModeCalls { state.mode with symbols := !state.mode.symbols }
  | some .focusUrl => { state with urlFocused := true }.showOskCalls
  | some (.text payload) =>
      if state.url.length + payload.length < urlSize - 1 then [.append payload, .urlBar] else []
  | some (.url payload) => [.copy payload, .urlBar]
  | _ => []

/-- What the end of a touch frame calls: it alone acts on the contact. -/
def handleFrameCalls : List ScreenCall :=
  if state.oskActive then
    if oskY ≤ state.mappedY then
      if state.pressing then state.handleOskTouchCalls state.mappedX state.mappedY else []
    else if state.pressing then state.hideOskCalls else []
  else if state.onUrlBar && state.pressing then { state with urlFocused := true }.showOskCalls
  else if state.onCorner && state.pressing then state.showOskCalls
  else []

/-- What one event of the touch panel calls. -/
def handleTouchEventCalls (ev : InputEvent) : List ScreenCall :=
  if ev.type = 3 then []
  else if ev.type = 1 ∧ ev.code = 0x14a then []
  else if ev.type = 0 ∧ ev.code = 0 then state.handleFrameCalls
  else []

/-- What one event of the key device calls. -/
def handleKeyEventCalls (ev : InputEvent) : List ScreenCall :=
  if ev.type = 1 ∧ ev.value = 1 then
    if ev.code = 193 then state.hideOskCalls
    else if ev.code = 194 then state.toggleOskCalls
    else if ev.code = 102 then { state with urlFocused := true }.showOskCalls
    else []
  else []

/-- What `SDL_UpdateRect` calls for one rectangle, backup and address bar included. -/
def updateRectCalls (rect : Rect) : List ScreenCall :=
  match rect.clip with
  | none => []
  | some (columns, rows) =>
      (if rows.start < 75 ∧ columns.stop > 140 then [.urlBar] else []) ++
        if state.oskActive && decide (rows.stop > oskY) then [.osk state.mode state.urlFocused]
        else []

/-- The calls of a step. -/
def calls : Label → List ScreenCall
  | .touch ev => state.handleTouchEventCalls ev
  | .key ev => state.handleKeyEventCalls ev
  | .fifo cmd => state.handleFifoCommandCalls cmd
  | .showKeyboard => { state with urlFocused := false }.showOskCalls
  | .browser step => .pixels step.pixels :: state.updateRectCalls step.rect

end State

/-! ## The calls tell what happens to the canvas -/

namespace State

variable (font : Font)

/-! ### Operations that call nothing -/

/-- Queueing a key for the page draws nothing. -/
@[simp] theorem canvas_oskInjectKey (sym unicode : Nat) (state : State) :
    (state.oskInjectKey sym unicode).canvas = state.canvas := rfl

/-- A control key for the page draws nothing. -/
@[simp] theorem canvas_sendCtrlKey (sym unicode : Nat) (state : State) :
    (state.sendCtrlKey sym unicode).canvas = state.canvas := rfl

/-- A simulated click draws nothing. -/
@[simp] theorem canvas_simulateClick (x y : Int) (state : State) :
    (state.simulateClick x y).canvas = state.canvas := rfl

/-- A key sent several times draws nothing. -/
@[simp] theorem canvas_repeatKey (times sym unicode : Nat) (state : State) :
    (state.repeatKey times sym unicode).canvas = state.canvas :=
  view_repeatKey (fun _ _ _ => rfl) times sym unicode state

/-- Emptying the browser's own address bar is keys only: it draws nothing. -/
@[simp] theorem canvas_clearBrowserUrlBar (state : State) :
    state.clearBrowserUrlBar.canvas = state.canvas :=
  view_clearBrowserUrlBar (fun _ _ _ => rfl) (fun _ _ _ => rfl) state

/-- Typing into the browser is keys only: it draws nothing. -/
@[simp] theorem canvas_typeText (text : List UInt8) (state : State) :
    (state.typeText text).canvas = state.canvas :=
  view_typeText (fun _ _ _ => rfl) text state

/-! ### Drawing -/

/-- Drawing the address bar is the one call for it. -/
theorem canvas_showUrl (state : State) :
    (state.showUrl font).canvas = ScreenCall.run font state.canvas .urlBar := rfl

/-- Drawing the preview is the one call for it, in the layout and focus of the moment. -/
theorem canvas_showPreview (state : State) :
    (state.showPreview font).canvas =
      ScreenCall.run font state.canvas (.preview state.mode.lang state.urlFocused) := rfl

/-- Presenting the keyboard is the one call that draws all of it. -/
theorem canvas_presentOsk (state : State) :
    (state.presentOsk font).canvas =
      ScreenCall.run font state.canvas (.osk state.mode state.urlFocused) := rfl

/-- `show_osk` changes the screen by the calls listed for it. -/
theorem canvas_showOsk (state : State) :
    (state.showOsk font).canvas = ScreenCall.runAll font state.showOskCalls state.canvas := by
  unfold showOsk showOskCalls
  split
  · rfl
  · rfl

/-- `hide_osk` changes the screen by the calls listed for it. -/
theorem canvas_hideOsk (state : State) :
    state.hideOsk.canvas = ScreenCall.runAll font state.hideOskCalls state.canvas := by
  unfold hideOsk hideOskCalls
  cases state.oskActive with
  | false => rfl
  | true =>
      have restored : state.frame.copyRows state.backup inOskRows =
          state.frame.overlay ((ScreenCall.restore state.backup).layer font state.url) := by
        funext row column
        change (if inOskRows row then state.backup row column else state.frame row column) =
          (if inOskRows row then some (state.backup row column) else none).getD
            (state.frame row column)
        split <;> rfl
      exact congrArg (Canvas.mk · state.url) restored

/-- `toggle_osk` changes the screen by the calls listed for it. -/
theorem canvas_toggleOsk (state : State) :
    (state.toggleOsk font).canvas = ScreenCall.runAll font state.toggleOskCalls state.canvas := by
  unfold toggleOsk toggleOskCalls
  split
  · exact canvas_hideOsk font state
  · exact canvas_showOsk font state

/-- A change of layout changes the screen by the calls listed for it. -/
theorem canvas_switchMode (mode : OskMode) (state : State) :
    (state.switchMode font mode).canvas =
      ScreenCall.runAll font (state.switchModeCalls mode) state.canvas := by
  unfold switchMode switchModeCalls
  dsimp only
  split
  · rfl
  · rfl

/-! ### Editing -/

/-- An edited address is shown twice. -/
theorem canvas_editUrl (state : State) (url : List UInt8) (edit : ScreenCall)
    (blank : edit.layer font state.url = .blank) (edits : edit.edit state.url = url) :
    (state.editUrl font url).canvas =
      ScreenCall.runAll font (state.editCalls edit) state.canvas := by
  have first : ScreenCall.run font state.canvas edit = ⟨state.frame, url⟩ := by
    unfold ScreenCall.run canvas
    rw [blank, edits]
    rfl
  rw [editUrl, canvas_showUrl, canvas_showPreview, editCalls, ScreenCall.runAll_cons, first]
  rfl

/-- The Clear key changes the screen and the address by its calls. -/
theorem canvas_pressClear (state : State) :
    (state.pressClear font).canvas = ScreenCall.runAll font state.pressClearCalls state.canvas := by
  unfold pressClear pressClearCalls
  by_cases focused : state.urlFocused = true
  · rw [if_pos focused, if_pos focused, canvas_clearBrowserUrlBar, canvas_simulateClick]
    exact canvas_editUrl font state [] .clear rfl rfl
  · rw [if_neg focused, if_neg focused, canvas_repeatKey, canvas_sendCtrlKey,
      canvas_showPreview, Bool.eq_false_iff.mpr focused]
    rfl

/-- The Backspace key changes the screen and the address by its calls. -/
theorem canvas_pressBackspace (state : State) :
    (state.pressBackspace font).canvas =
      ScreenCall.runAll font state.pressBackspaceCalls state.canvas := by
  unfold pressBackspace pressBackspaceCalls
  rw [canvas_oskInjectKey]
  split
  · exact canvas_editUrl font state state.url.dropLast .chop rfl rfl
  · rfl

/-- The Space key changes the screen and the address by its calls. -/
theorem canvas_pressSpace (state : State) :
    (state.pressSpace font).canvas = ScreenCall.runAll font state.pressSpaceCalls state.canvas := by
  unfold pressSpace pressSpaceCalls
  rw [canvas_oskInjectKey]
  split
  · exact canvas_editUrl font state (state.url ++ [32]) (.append [32]) rfl rfl
  · rfl

/-- The Enter key changes the screen and the address by its calls. -/
theorem canvas_pressEnter (state : State) :
    (state.pressEnter font).canvas = ScreenCall.runAll font state.pressEnterCalls state.canvas := by
  have typed : ∀ (text : List UInt8) (state : State),
      (state.typeText text).hideOskCalls = state.hideOskCalls :=
    fun text state => view_typeText (fun _ _ _ => rfl) text state
  have cleared : ∀ state : State, state.clearBrowserUrlBar.hideOskCalls = state.hideOskCalls :=
    fun state => view_clearBrowserUrlBar (fun _ _ _ => rfl) (fun _ _ _ => rfl) state
  have others : ∀ (state : State) (sym unicode : Nat) (x y : Int),
      (state.oskInjectKey sym unicode).hideOskCalls = state.hideOskCalls ∧
        (state.simulateClick x y).hideOskCalls = state.hideOskCalls ∧
        (state.showUrl font).hideOskCalls = state.hideOskCalls :=
    fun _ _ _ _ _ => ⟨rfl, rfl, rfl⟩
  unfold pressEnter pressEnterCalls
  rw [canvas_hideOsk, canvas_oskInjectKey, ScreenCall.runAll_append, (others _ _ _ 0 0).1]
  dsimp only
  split
  · rw [typed, cleared, (others _ 0 0 _ _).2.1, (others _ 0 0 0 0).2.2, canvas_typeText,
      canvas_clearBrowserUrlBar, canvas_simulateClick, canvas_showUrl]
    rfl
  · rfl

/-- The `.com` key changes the screen and the address by its calls. -/
theorem canvas_pressDotcom (state : State) :
    (state.pressDotcom font).canvas =
      ScreenCall.runAll font state.pressDotcomCalls state.canvas := by
  have typed : ∀ (bytes : List UInt8) (state : State),
      (bytes.foldl (fun state byte => state.oskInjectKey byte.toNat byte.toNat) state).canvas =
        state.canvas := by
    intro bytes state
    apply view_foldl
    exact fun _ _ => rfl
  unfold pressDotcom pressDotcomCalls
  dsimp only
  rw [typed]
  split
  · exact canvas_editUrl font state _ (.append _) rfl rfl
  · rfl

/-- A letter key changes the screen and the address by its calls. -/
theorem canvas_pressChar (key : OskKey) (state : State) :
    (state.pressChar font key).canvas =
      ScreenCall.runAll font (state.pressCharCalls key) state.canvas := by
  unfold pressChar pressCharCalls
  dsimp only
  rw [canvas_oskInjectKey]
  split
  · exact canvas_editUrl font state _ (.appendChar _) rfl rfl
  · rfl

/-! ### The dispatch -/

/-- A released key is drawn once more, in its unpressed colours. -/
theorem canvas_releaseKey (key : OskKey) (state : State) :
    (state.releaseKey font key).canvas =
      ScreenCall.run font state.canvas (.oskKey state.mode key false) := rfl

/-! The keys that edit the address leave the keyboard as it is. -/

/-- The part of the state a released key is drawn from, beside the canvas. -/
def keyboard (state : State) : Keyboard :=
  ⟨state.oskActive, state.mode, state.keys, state.urlFocused⟩

/-- Emptying the browser's address bar leaves the keyboard as it is. -/
theorem keyboard_clearBrowserUrlBar (state : State) :
    state.clearBrowserUrlBar.keyboard = state.keyboard :=
  view_clearBrowserUrlBar (fun _ _ _ => rfl) (fun _ _ _ => rfl) state

/-- The Clear key leaves the keyboard as it is. -/
theorem keyboard_pressClear (state : State) :
    (state.pressClear font).keyboard = state.keyboard := by
  have quiet : ∀ (state : State) (times sym unicode : Nat),
      (state.repeatKey times sym unicode).keyboard = state.keyboard :=
    fun state times sym unicode => view_repeatKey (fun _ _ _ => rfl) times sym unicode state
  unfold pressClear
  split
  · rw [keyboard_clearBrowserUrlBar]
    rfl
  · rw [quiet]
    rfl

/-- The Backspace key leaves the keyboard as it is. -/
theorem keyboard_pressBackspace (state : State) :
    (state.pressBackspace font).keyboard = state.keyboard := by
  unfold pressBackspace
  split
  · rfl
  · rfl

/-- The Space key leaves the keyboard as it is. -/
theorem keyboard_pressSpace (state : State) :
    (state.pressSpace font).keyboard = state.keyboard := by
  unfold pressSpace
  split
  · rfl
  · rfl

/-- The `.com` key leaves the keyboard as it is. -/
theorem keyboard_pressDotcom (state : State) :
    (state.pressDotcom font).keyboard = state.keyboard := by
  have typed : ∀ (bytes : List UInt8) (state : State),
      (bytes.foldl (fun state byte => state.oskInjectKey byte.toNat byte.toNat)
        state).keyboard = state.keyboard := by
    intro bytes state
    apply view_foldl
    exact fun _ _ => rfl
  unfold pressDotcom
  dsimp only
  rw [typed]
  split
  · rfl
  · rfl

/-- A letter key leaves the keyboard as it is. -/
theorem keyboard_pressChar (key : OskKey) (state : State) :
    (state.pressChar font key).keyboard = state.keyboard := by
  have injected : ∀ (state : State) (sym unicode : Nat),
      (state.oskInjectKey sym unicode).keyboard = state.keyboard := fun _ _ _ => rfl
  unfold pressChar
  dsimp only
  rw [injected]
  split
  · rfl
  · rfl

/-- An operation that leaves the keyboard as it is, followed by the release of the key. -/
theorem canvas_released {state after : State} {calls : List ScreenCall} (key : OskKey)
    (canvas : after.canvas = ScreenCall.runAll font calls state.canvas)
    (keyboard : after.keyboard = state.keyboard) :
    (after.releaseKey font key).canvas =
      ScreenCall.runAll font (calls ++ [.oskKey state.mode key false]) state.canvas := by
  have mode : after.mode = state.mode := congrArg Keyboard.mode keyboard
  rw [canvas_releaseKey, canvas, ScreenCall.runAll_append, mode]
  rfl

/-- Whatever key is pressed, the screen and the address change by that key's calls. -/
theorem canvas_pressKey (key : OskKey) (state : State) :
    (state.pressKey font key).canvas =
      ScreenCall.runAll font (state.pressKeyCalls key) state.canvas := by
  unfold pressKey pressKeyCalls
  cases key.action with
  | hide => exact canvas_hideOsk font state
  | clear =>
      exact canvas_released font key (canvas_pressClear font state) (keyboard_pressClear font state)
  | shift | symbols | lang => rfl
  | backspace =>
      exact canvas_released font key (canvas_pressBackspace font state)
        (keyboard_pressBackspace font state)
  | space =>
      exact canvas_released font key (canvas_pressSpace font state) (keyboard_pressSpace font state)
  | enter => exact canvas_pressEnter font state
  | dotcom =>
      exact canvas_released font key (canvas_pressDotcom font state)
        (keyboard_pressDotcom font state)
  | char =>
      have canvas := canvas_pressChar font key state
      have keyboard := keyboard_pressChar font key state
      have mode : (state.pressChar font key).mode = state.mode := congrArg Keyboard.mode keyboard
      dsimp only
      rw [mode]
      split
      · have focused : (state.pressChar font key).urlFocused = state.urlFocused :=
          congrArg Keyboard.focused keyboard
        rw [canvas_presentOsk, ScreenCall.runAll_append, ← canvas]
        dsimp only
        rw [focused]
        rfl
      · exact canvas_released font key canvas keyboard

/-- A tap inside the keyboard changes the screen and the address by its calls. -/
theorem canvas_handleOskTouch (x y : Int) (state : State) :
    (state.handleOskTouch font x y).canvas =
      ScreenCall.runAll font (state.handleOskTouchCalls x y) state.canvas := by
  unfold handleOskTouch handleOskTouchCalls
  cases state.keys.find? fun key => key.contains x y with
  | none => rfl
  | some key =>
      -- the pressed picture of the key changes nothing that its action looks at
      have same : ∀ (layer : Layer UInt16) (mode : Refresh) (x y w h : Int),
          ((state.draw layer).refresh mode x y w h).pressKeyCalls key = state.pressKeyCalls key :=
        fun _ _ _ _ _ _ => rfl
      dsimp only
      rw [canvas_pressKey, same, ScreenCall.runAll_cons]
      rfl

/-- Giving the address the focus changes the screen only by showing the keyboard. -/
theorem canvas_focusUrl (state : State) :
    (state.focusUrl font).canvas =
      ScreenCall.runAll font { state with urlFocused := true }.showOskCalls state.canvas := by
  unfold focusUrl
  rw [canvas_showOsk]
  rfl

/-- A line from the FIFO changes the screen and the address by its calls. -/
theorem canvas_handleFifoCommand (cmd : List UInt8) (state : State) :
    (state.handleFifoCommand font cmd).canvas =
      ScreenCall.runAll font (state.handleFifoCommandCalls cmd) state.canvas := by
  unfold handleFifoCommand handleFifoCommandCalls
  rcases fifoCommand cmd with _ | command
  · rfl
  · cases command with
    | inject sym unicode => rfl
    | osk => exact canvas_toggleOsk font state
    | lang | shift | sym => exact canvas_switchMode font _ state
    | back => rfl
    | focusUrl => exact canvas_focusUrl font state
    | text payload =>
        dsimp only
        unfold handleText
        rw [canvas_typeText]
        split
        · rfl
        · rfl
    | url payload =>
        dsimp only
        unfold handleUrl
        rw [canvas_oskInjectKey, canvas_typeText, canvas_clearBrowserUrlBar, canvas_simulateClick]
        rfl
    | click x y => rfl

/-- A touch on the page proper draws nothing. -/
theorem canvas_regularTouch (state : State) : state.regularTouch.canvas = state.canvas := by
  unfold regularTouch
  dsimp only
  split
  · rfl
  · split
    · rfl
    · split <;> rfl

/-- The end of a touch frame changes the screen and the address by its calls. -/
theorem canvas_handleFrame (state : State) :
    (state.handleFrame font).canvas =
      ScreenCall.runAll font state.handleFrameCalls state.canvas := by
  unfold handleFrame handleFrameCalls
  split
  · split
    · unfold touchOnOsk
      split
      · exact canvas_handleOskTouch font _ _ { state with touchDown := true }
      · split <;> rfl
    · unfold touchAboveOsk
      split
      · dsimp only
        split
        · exact canvas_hideOsk font state
        · exact canvas_hideOsk font state
      · split
        · rfl
        · exact canvas_regularTouch state
  · unfold touchPage
    split
    · exact canvas_focusUrl font { state with touchDown := true }
    · split
      · exact canvas_showOsk font { state with touchDown := true }
      · exact canvas_regularTouch state

/-- An event of the touch panel changes the screen and the address by its calls. -/
theorem canvas_handleTouchEvent (ev : InputEvent) (state : State) :
    (state.handleTouchEvent font ev).canvas =
      ScreenCall.runAll font (state.handleTouchEventCalls ev) state.canvas := by
  unfold handleTouchEvent handleTouchEventCalls
  split
  · split
    · rfl
    · split <;> rfl
  · split
    · rfl
    · split
      · exact canvas_handleFrame font state
      · rfl

/-- An event of the key device changes the screen and the address by its calls. -/
theorem canvas_handleKeyEvent (ev : InputEvent) (state : State) :
    (state.handleKeyEvent font ev).canvas =
      ScreenCall.runAll font (state.handleKeyEventCalls ev) state.canvas := by
  unfold handleKeyEvent handleKeyEventCalls
  split
  · by_cases back : ev.code = 193
    · rw [back, if_neg (by decide), if_neg (by decide), if_pos rfl, if_pos rfl]
      split
      · exact canvas_hideOsk font state
      · next inactive =>
        unfold hideOskCalls
        rw [if_neg inactive]
        rfl
    · rw [if_neg back, if_neg back]
      split
      · next pageup =>
        rw [pageup]
        rfl
      · split
        · next pagedown =>
          rw [pagedown]
          rfl
        · split
          · exact canvas_toggleOsk font state
          · split
            · exact canvas_focusUrl font state
            · rfl
  · rfl

/-- Showing the address over the page again leaves the keyboard as it is. -/
theorem keyboard_assertUrlBar (columns rows : Span) (state : State) :
    (state.assertUrlBar font columns rows).keyboard = state.keyboard := by
  unfold assertUrlBar
  split <;> rfl

/-- A rectangle the browser reports changes the screen by its calls. -/
theorem canvas_updateRect (rect : Rect) (state : State) :
    (state.updateRect font rect).canvas =
      ScreenCall.runAll font (state.updateRectCalls rect) state.canvas := by
  have refreshed : ∀ (columns rows : Span) (state : State),
      (state.refreshPage columns rows).canvas = state.canvas := by
    intro columns rows state
    unfold refreshPage
    dsimp only
    split <;> rfl
  unfold updateRect updateRectCalls
  cases rect.clip with
  | none => rfl
  | some spans =>
      obtain ⟨columns, rows⟩ := spans
      have shown : (state.assertUrlBar font columns rows).canvas =
          ScreenCall.runAll font (if rows.start < 75 ∧ columns.stop > 140 then [.urlBar] else [])
            state.canvas := by
        unfold assertUrlBar
        split <;> rfl
      have keyboard := keyboard_assertUrlBar font columns rows state
      have active : (state.assertUrlBar font columns rows).oskActive = state.oskActive :=
        congrArg Keyboard.active keyboard
      have saved : ∀ state : State, (state.saveUnderOsk font rows).canvas =
          ScreenCall.run font state.canvas (.osk state.mode state.urlFocused) := fun _ => rfl
      have mode : (state.assertUrlBar font columns rows).mode = state.mode :=
        congrArg Keyboard.mode keyboard
      have focused : (state.assertUrlBar font columns rows).urlFocused = state.urlFocused :=
        congrArg Keyboard.focused keyboard
      dsimp only
      rw [active, ScreenCall.runAll_append, ← shown]
      split
      · split
        · rw [saved, mode, focused]
          rfl
        · rw [refreshed, saved, mode, focused]
          rfl
      · exact refreshed columns rows _

/-- The calls of a step lead from the canvas before it to the one after it. -/
theorem canvas_step (label : Label) (state : State) :
    (state.step font label).canvas = ScreenCall.runAll font (state.calls label) state.canvas := by
  cases label with
  | touch ev => exact canvas_handleTouchEvent font ev state
  | key ev => exact canvas_handleKeyEvent font ev state
  | fifo cmd => exact canvas_handleFifoCommand font cmd state
  | showKeyboard => exact canvas_showOsk font { state with urlFocused := false }
  | browser step => exact canvas_updateRect font step.rect (state.draw step.pixels)

/-- The address after a step is what its calls make of it. -/
theorem url_step (label : Label) (state : State) :
    (state.step font label).url = (state.calls label).foldl ScreenCall.edit state.url := by
  have canvas := congrArg Canvas.url (canvas_step font label state)
  rw [ScreenCall.runAll_url] at canvas
  exact canvas

end State

end Nookobo.Shim
