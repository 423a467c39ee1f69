import Nookobo.Shim.State
import Nookobo.Text.Scan

/-!
# The SDL shim: input

What `input_worker` does with a touch of the keyboard, a command from the FIFO, a
raw touch event and a hardware key. One round of its loop reads one record from
each source that is ready; each record is one step here.
-/

namespace Nookobo.Shim

open Nookobo.Semantics Nookobo.Text

/-- The touch point lies on the key. -/
def OskKey.contains (key : OskKey) (x y : Int) : Bool :=
  decide (key.x ≤ x ∧ x < key.x + key.w ∧ key.y ≤ y ∧ y < key.y + key.h)

namespace State

variable (font : Font)

/-! ## Touches of the keyboard -/

/-- The address is edited: preview and address bar are drawn again. -/
def editUrl (url : List UInt8) (state : State) : State :=
  ({ state with url := url }.showPreview font).showUrl font

/-- The target of the Enter key: a search for a text, the text itself for an
address. -/
def enterTarget (url : List UInt8) : List UInt8 :=
  let trimmed := url.dropWhile (· = 32)
  if trimmed.contains 32 ||
      (strstr (ascii "://") trimmed).isNone && !trimmed.contains 46 then
    let query := (trimmed.take 1022).map fun byte => if byte = 32 then 43 else byte
    (ascii "https://lite.duckduckgo.com/lite/?q=" ++ query).take 1023
  else trimmed.take 1023

/-- The UTF-8 bytes a character key appends to the address. -/
def charBytes (codePoint : Nat) : List UInt8 :=
  if codePoint < 128 then [codePoint.toUInt8]
  else if codePoint < 0x800 then
    [(0xC0 + codePoint / 64).toUInt8, (0x80 + codePoint % 64).toUInt8]
  else []

/-- `sizeof(g_current_url)`. -/
def urlSize : Nat := 1024

/-- The Clear key. -/
def pressClear (state : State) : State :=
  if state.urlFocused then
    ((({ state with url := [] }.showPreview font).showUrl font).simulateClick 300
      35).clearBrowserUrlBar
  else ((state.showPreview font).sendCtrlKey sdlkU 117).repeatKey 50 sdlkBackspace 8

/-- The Backspace key. -/
def pressBackspace (state : State) : State :=
  (if state.urlFocused && !state.url.isEmpty then state.editUrl font state.url.dropLast
    else state).oskInjectKey sdlkBackspace 8

/-- The Space key. -/
def pressSpace (state : State) : State :=
  (if state.urlFocused && state.url.length < urlSize - 2 then
      state.editUrl font (state.url ++ [32])
    else state).oskInjectKey sdlkSpace 32

/-- The Enter key. -/
def pressEnter (state : State) : State :=
  let state :=
    if state.urlFocused && !state.url.isEmpty then
      let target := enterTarget state.url
      ((({ state with url := target }.showUrl font).simulateClick 300 35).clearBrowserUrlBar
        ).typeText target
    else state
  (state.oskInjectKey sdlkReturn 13).hideOsk

/-- The `.com` key, `.ru` in the Russian layout. -/
def pressDotcom (state : State) : State :=
  let extension := if state.mode.lang = .english then ascii ".com" else ascii ".ru"
  let state :=
    if state.urlFocused && state.url.length < urlSize - 6 then
      state.editUrl font (state.url ++ extension)
    else state
  extension.foldl (fun state byte => state.oskInjectKey byte.toNat byte.toNat) state

/-- A character key, up to the release of the shift key. -/
def pressChar (key : OskKey) (state : State) : State :=
  let codePoint := key.unicode state.mode
  (if state.urlFocused && state.url.length < urlSize - 6 then
      state.editUrl font (state.url ++ charBytes codePoint)
    else state).oskInjectKey (if codePoint < 128 then toLower codePoint else codePoint) codePoint

/-- The key is drawn as released again. -/
def releaseKey (key : OskKey) (state : State) : State :=
  (state.draw (drawOskKey font state.mode key false)).refresh .fast key.x key.y key.w key.h

/-- The `switch` of `handle_osk_touch`, with what follows it. -/
def pressKey (key : OskKey) (state : State) : State :=
  match key.action with
  | .hide => state.hideOsk
  | .clear => (state.pressClear font).releaseKey font key
  | .shift =>
      { state with mode := { state.mode with shift := !state.mode.shift } }.presentOsk font
  | .symbols =>
      { state with mode := { state.mode with symbols := !state.mode.symbols } }.presentOsk font
  | .lang =>
      { state with mode := { state.mode with lang := state.mode.lang.toggle } }.presentOsk font
  | .backspace => (state.pressBackspace font).releaseKey font key
  | .space => (state.pressSpace font).releaseKey font key
  | .enter => state.pressEnter font
  | .dotcom => (state.pressDotcom font).releaseKey font key
  | .char =>
      let pressed := state.pressChar font key
      if pressed.mode.shift then
        { pressed with mode := { pressed.mode with shift := false } }.presentOsk font
      else pressed.releaseKey font key

/-- `handle_osk_touch`. -/
def handleOskTouch (x y : Int) (state : State) : State :=
  match state.keys.find? fun key => key.contains x y with
  | none => state
  | some key =>
      ((state.draw (drawOskKey font state.mode key true)).refresh .fast key.x key.y key.w key.h
        ).pressKey font key

end State

/-! ## Commands from the FIFO -/

/-- What a line from the FIFO asks for. -/
inductive FifoCommand where
  | inject (sym unicode : Nat)
  | osk
  | lang
  | shift
  | sym
  | back
  | focusUrl
  | text (payload : List UInt8)
  | url (payload : List UInt8)
  | click (x y : Int)
deriving DecidableEq, Repr

/-- The names after `KEY:`. -/
def keyCommands : List (List UInt8 × FifoCommand) :=
  [(ascii "enter", .inject sdlkReturn 13), (ascii "backspace", .inject sdlkBackspace 8),
    (ascii "escape", .inject sdlkEscape 27), (ascii "tab", .inject sdlkTab 9),
    (ascii "pageup", .inject sdlkPageup 0), (ascii "pagedown", .inject sdlkPagedown 0),
    (ascii "home", .inject sdlkHome 0), (ascii "osk", .osk), (ascii "lang", .lang),
    (ascii "shift", .shift), (ascii "sym", .sym), (ascii "back", .back),
    (ascii "focus_url", .focusUrl)]

/-- The tests of `handle_fifo_command`, in its order; a line that passes none of
them is ignored. -/
def fifoCommand (cmd : List UInt8) : Option FifoCommand :=
  if (ascii "KEY:").isPrefixOf cmd then keyCommands.lookup (cmd.drop 4)
  else if (ascii "TEXT:").isPrefixOf cmd then some (.text (cmd.drop 5))
  else if (ascii "URL:").isPrefixOf cmd then some (.url (cmd.drop 4))
  else if (ascii "CLICK:").isPrefixOf cmd then
    (scanPair (cmd.drop 6)).map fun (x, y) => .click x y
  else none

namespace State

variable (font : Font)

/-- The keyboard changes its mode; it is drawn again when it is up. -/
def switchMode (mode : OskMode) (state : State) : State :=
  let switched := { state with mode := mode }
  if switched.oskActive then switched.presentOsk font else switched

/-- The command `TEXT:`. -/
def handleText (payload : List UInt8) (state : State) : State :=
  (if state.url.length + payload.length < urlSize - 1 then
      { state with url := state.url ++ payload }.showUrl font
    else state).typeText payload

/-- The command `URL:`. -/
def handleUrl (payload : List UInt8) (state : State) : State :=
  ((((({ state with url := payload.take (urlSize - 1) }.showUrl font).simulateClick 300
    35).clearBrowserUrlBar).typeText payload).oskInjectKey sdlkReturn 13)

/-- A click below the address bar takes the focus from it. -/
def handleClick (x y : Int) (state : State) : State :=
  { state with urlFocused := state.urlFocused && decide (y < 75) }.simulateClick x y

/-- `handle_fifo_command`. -/
def handleFifoCommand (cmd : List UInt8) (state : State) : State :=
  match fifoCommand cmd with
  | none => state
  | some (.inject sym unicode) => state.oskInjectKey sym unicode
  | some .osk => state.toggleOsk font
  | some .lang => state.switchMode font { state.mode with lang := state.mode.lang.toggle }
  | some .shift => state.switchMode font { state.mode with shift := !state.mode.shift }
  | some .sym => state.switchMode font { state.mode with symbols := !state.mode.symbols }
  | some .back => state.simulateClick 25 48
  | some .focusUrl => state.focusUrl font
  | some (.text payload) => state.handleText font payload
  | some (.url payload) => state.handleUrl font payload
  | some (.click x y) => state.handleClick x y

/-! ## Touch frames -/

/-- `mapped_x`: the panel is mounted rotated. -/
def mappedX (state : State) : Int :=
  min (max (Int.bmod (1403 - state.curY) 0x100000000) 0) (panelWidth - 1)

/-- `mapped_y`. -/
def mappedY (state : State) : Int := min (max state.curX 0) (panelHeight - 1)

/-- The finger has come down since the last frame. -/
def pressing (state : State) : Bool := state.curDown && !state.touchDown

/-- The finger has gone up since the last frame. -/
def lifting (state : State) : Bool := !state.curDown && state.touchDown

/-- The frame lies on the address bar: `mapped_y < 75 && mapped_x >= 140`. -/
def onUrlBar (state : State) : Bool := decide (state.mappedY < 75 ∧ 140 ≤ state.mappedX)

/-- The frame lies in the bottom-right corner. -/
def onCorner (state : State) : Bool := decide (1320 ≤ state.mappedX ∧ 1800 ≤ state.mappedY)

/-- The frame as the browser gets it: press, lift or motion. -/
def regularTouch (state : State) : State :=
  let x := state.mappedX
  let y := state.mappedY
  let xrel := x - state.lastTouchX
  let yrel := y - state.lastTouchY
  let focused := { state with urlFocused := state.urlFocused && decide (y < 75) }
  let touched :=
    if state.pressing then
      { focused with touchDown := true }.queue
        [.mouseMotion false (toField x) (toField y) xrel yrel,
          .mouseButtonDown (toField x) (toField y)]
    else if state.lifting then
      { focused with touchDown := false }.queue [.mouseButtonUp (toField x) (toField y)]
    else if state.touchDown && decide (x ≠ state.lastTouchX ∨ y ≠ state.lastTouchY) then
      focused.queue [.mouseMotion true (toField x) (toField y) xrel yrel]
    else focused
  { touched with lastTouchX := x, lastTouchY := y }

/-- A frame on the keyboard. -/
def touchOnOsk (state : State) : State :=
  if state.pressing then
    { state with touchDown := true }.handleOskTouch font state.mappedX state.mappedY
  else if state.lifting then { state with touchDown := false }
  else state

/-- A frame above the keyboard: a press dismisses it and is passed on as a click. -/
def touchAboveOsk (state : State) : State :=
  if state.pressing then
    let hidden := { state.hideOsk with touchDown := true }
    if 75 ≤ state.mappedY then hidden.simulateClick state.mappedX state.mappedY else hidden
  else if state.lifting then { state with touchDown := false }
  else state.regularTouch

/-- A frame while the keyboard is off: two hotspots bring it up. -/
def touchPage (state : State) : State :=
  if state.onUrlBar && state.pressing then { state with touchDown := true }.focusUrl font
  else if state.onCorner && state.pressing then { state with touchDown := true }.showOsk font
  else state.regularTouch

/-- The handling of `SYN_REPORT`. -/
def handleFrame (state : State) : State :=
  if state.oskActive then
    if oskY ≤ state.mappedY then state.touchOnOsk font else state.touchAboveOsk
  else state.touchPage font

end State

/-! ## Input records -/

/-- `struct input_event` without its time. -/
structure InputEvent where
  type : UInt16
  code : UInt16
  value : Int32
deriving DecidableEq, Repr

namespace State

variable (font : Font)

/-- A record of `/dev/input/event1`: coordinates in the form of either driver, the
contact, or the end of a frame. -/
def handleTouchEvent (ev : InputEvent) (state : State) : State :=
  if ev.type = 3 then
    if ev.code = 0x35 ∨ ev.code = 0 then { state with curX := ev.value.toInt }
    else if ev.code = 0x36 ∨ ev.code = 1 then { state with curY := ev.value.toInt }
    else state
  else if ev.type = 1 ∧ ev.code = 0x14a then { state with curDown := ev.value != 0 }
  else if ev.type = 0 ∧ ev.code = 0 then state.handleFrame font
  else state

/-- A record of `/dev/input/event2`: the four page buttons and the Home key. -/
def handleKeyEvent (ev : InputEvent) (state : State) : State :=
  if ev.type = 1 ∧ ev.value = 1 then
    if ev.code = 191 then state.oskInjectKey sdlkPageup 0
    else if ev.code = 192 then state.oskInjectKey sdlkPagedown 0
    else if ev.code = 193 then
      if state.oskActive then state.hideOsk else state.simulateClick 13 35
    else if ev.code = 194 then state.toggleOsk font
    else if ev.code = 102 then state.focusUrl font
    else state
  else state

end State

end Nookobo.Shim
