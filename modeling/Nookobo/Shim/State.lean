import Nookobo.Shim.Osk

/-!
# The SDL shim: state and elementary operations

`State` holds the file-scope variables of the shim and the locals of
`input_worker` that live across its loop, from a successful `SDL_SetVideoMode` on:
the framebuffer is mapped and the keyboard's backup can be allocated. Events are
recorded in the order `queue_event` accepts them, the queue never being full;
panel updates in the order they are submitted.
-/

namespace Nookobo.Shim

open Nookobo.Semantics Nookobo.Text

/-! ## SDL events -/

/-- The key symbols of SDL that the shim sends. -/
def sdlkBackspace : Nat := 8
def sdlkTab : Nat := 9
def sdlkReturn : Nat := 13
def sdlkEscape : Nat := 27
def sdlkSpace : Nat := 32
def sdlkU : Nat := 117
def sdlkRight : Nat := 275
def sdlkHome : Nat := 278
def sdlkEnd : Nat := 279
def sdlkPageup : Nat := 280
def sdlkPagedown : Nat := 281
def sdlkLctrl : Nat := 306

/-- `SDL_keysym`, with the widths of its fields. -/
structure Keysym where
  scancode : UInt8
  sym : Nat
  unicode : UInt16
deriving DecidableEq, Repr

/-- The events the shim puts in its queue. Buttons are the left one. -/
inductive Event where
  | keyDown (key : Keysym)
  | keyUp (key : Keysym)
  | mouseMotion (pressed : Bool) (x y : UInt16) (xrel yrel : Int)
  | mouseButtonDown (x y : UInt16)
  | mouseButtonUp (x y : UInt16)
deriving DecidableEq, Repr

/-- A coordinate stored in a `uint16_t` field. -/
def toField (coordinate : Int) : UInt16 := UInt16.ofNat (coordinate % 0x10000).toNat

/-! ## Panel updates -/

/-- The waveforms of a refresh. -/
inductive Refresh where
  | fast
  | gray
  | full
deriving DecidableEq, Repr

/-- One `MXCFB_SEND_UPDATE_V1` region. -/
structure Update where
  left : Int
  top : Int
  width : Int
  height : Int
  mode : Refresh
deriving DecidableEq, Repr

/-- `& ~7`. -/
def alignDown (coordinate : Int) : Int := coordinate - coordinate % 8

/-- `epdc_refresh_area`: the region aligned to 8 pixels and cut at the panel. -/
def epdcRefreshArea (mode : Refresh) (left top width height : Int) : Option Update :=
  let alignedLeft := alignDown left
  let alignedTop := alignDown top
  let alignedRight := min (alignDown (left + width + 7)) panelWidth
  let alignedBottom := min (alignDown (top + height + 7)) panelHeight
  if alignedRight ≤ alignedLeft ∨ alignedBottom ≤ alignedTop then none
  else
    some ⟨alignedLeft, alignedTop, alignedRight - alignedLeft, alignedBottom - alignedTop, mode⟩

/-! ## State -/

/-- What the shim keeps between its calls: touch, keyboard, address, frame, events and refreshes. -/
structure State where
  /-- The framebuffer, padding columns included. -/
  frame : Frame UInt16 := fun _ _ => colorWhite
  /-- `osk_backup`, by the row of the framebuffer it belongs to. -/
  backup : Frame UInt16 := fun _ _ => 0
  oskActive : Bool := false
  mode : OskMode := {}
  /-- `osk_keys`, as last built. -/
  keys : List OskKey := []
  /-- `g_current_url` up to its NUL. -/
  url : List UInt8 := ascii "https://lite.duckduckgo.com"
  urlFocused : Bool := true
  touchDown : Bool := false
  lastTouchX : Int := 0
  lastTouchY : Int := 0
  /-- Locals of `input_worker`. -/
  curX : Int := 0
  curY : Int := 0
  curDown : Bool := false
  firstFullFrame : Bool := true
  events : List Event := []
  updates : List Update := []

namespace State

/-- Cover the framebuffer with what a drawing routine draws. -/
def draw (layer : Layer UInt16) (state : State) : State :=
  { state with frame := state.frame.overlay layer }

/-- A refresh of the panel is noted and changes nothing else. -/
def refresh (mode : Refresh) (left top width height : Int) (state : State) : State :=
  { state with
    updates := state.updates ++ (epdcRefreshArea mode left top width height).toList }

/-- `queue_event` on some events in a row. -/
def queue (events : List Event) (state : State) : State :=
  { state with events := state.events ++ events }

/-! ## Synthetic input -/

/-- `osk_inject_key`. -/
def oskInjectKey (sym unicode : Nat) : State → State :=
  queue [.keyDown ⟨sym.toUInt8, sym, unicode.toUInt16⟩, .keyUp ⟨sym.toUInt8, sym, unicode.toUInt16⟩]

/-- `send_ctrl_key`. -/
def sendCtrlKey (sym unicode : Nat) : State → State :=
  let key : Keysym := ⟨if sym < 256 then sym.toUInt8 else 0, sym, unicode.toUInt16⟩
  queue [.keyDown ⟨0, sdlkLctrl, 0⟩, .keyDown key, .keyUp key, .keyUp ⟨0, sdlkLctrl, 0⟩]

/-- `simulate_click`. -/
def simulateClick (x y : Int) : State → State :=
  queue [.mouseMotion false (toField x) (toField y) 0 0, .mouseButtonDown (toField x) (toField y),
    .mouseButtonUp (toField x) (toField y)]

/-- A key injected some times over. -/
def repeatKey (times sym unicode : Nat) (state : State) : State :=
  (List.range times).foldl (fun state _ => state.oskInjectKey sym unicode) state

/-- `clear_browser_url_bar`. -/
def clearBrowserUrlBar (state : State) : State :=
  ((((state.oskInjectKey sdlkEnd 0).repeatKey 15 sdlkRight 0).sendCtrlKey sdlkU 117).repeatKey 50
    sdlkBackspace 8).sendCtrlKey sdlkU 117

/-- `tolower` for the ASCII letters. -/
def toLower (codePoint : Nat) : Nat :=
  if 65 ≤ codePoint ∧ codePoint ≤ 90 then codePoint + 32 else codePoint

/-- Type a text, code point by code point. -/
def typeText (text : List UInt8) (state : State) : State :=
  (codePoints text).foldl
    (fun state codePoint =>
      if codePoint = 10 ∨ codePoint = 13 then state
      else
        state.oskInjectKey (if codePoint < 128 then toLower codePoint else codePoint) codePoint)
    state

/-! ### Views that typing leaves alone

What a sequence of injected keys does not change is settled by one key. -/

section Typing

variable {β : Type} {view : State → β}

/-- What every operation leaves alone, a list of them leaves alone. -/
theorem view_foldl {α : Type} {operation : State → α → State}
    (same : ∀ state item, view (operation state item) = view state) (items : List α)
    (state : State) : view (items.foldl operation state) = view state := by
  induction items generalizing state with
  | nil => rfl
  | cons item rest ih =>
      rw [List.foldl_cons, ih]
      exact same state item

/-- What a key leaves alone, the key sent several times leaves alone. -/
theorem view_repeatKey
    (inject : ∀ state sym unicode, view (oskInjectKey sym unicode state) = view state)
    (times sym unicode : Nat) (state : State) :
    view (state.repeatKey times sym unicode) = view state := by
  apply view_foldl
  intro state _
  exact inject state sym unicode

/-- What keys leave alone, emptying the browser's address bar leaves alone. -/
theorem view_clearBrowserUrlBar
    (inject : ∀ state sym unicode, view (oskInjectKey sym unicode state) = view state)
    (ctrl : ∀ state sym unicode, view (sendCtrlKey sym unicode state) = view state)
    (state : State) : view state.clearBrowserUrlBar = view state := by
  rw [clearBrowserUrlBar, ctrl, view_repeatKey inject, ctrl, view_repeatKey inject, inject]

/-- What a key leaves alone, typing into the browser leaves alone. -/
theorem view_typeText
    (inject : ∀ state sym unicode, view (oskInjectKey sym unicode state) = view state)
    (text : List UInt8) (state : State) : view (state.typeText text) = view state := by
  apply view_foldl
  intro state codePoint
  split
  · rfl
  · exact inject state _ _

end Typing

/-! ## The keyboard on and off the screen -/

variable (font : Font)

/-- `draw_url_bar_overlay` with its refresh. -/
def showUrl (state : State) : State :=
  (state.draw (drawUrlBarOverlay font state.url)).refresh .fast 145 6 1175 58

/-- `draw_osk_input_preview` with its refresh. -/
def showPreview (state : State) : State :=
  (state.draw (drawOskInputPreview font state.mode.lang state.urlFocused state.url)).refresh
    .fast 202 1275 1000 46

/-- `draw_osk`: the layout is rebuilt and the keyboard drawn. -/
def redrawOsk (state : State) : State :=
  { state with
    keys := buildOskLayout state.mode.lang
    frame := state.frame.overlay (drawOsk font state.mode state.urlFocused state.url) }

/-- `draw_osk` with the refresh that follows it everywhere but in `SDL_UpdateRect`. -/
def presentOsk (state : State) : State :=
  (state.redrawOsk font).refresh .gray 0 oskY oskW oskH

/-- The rows the keyboard covers. -/
def inOskRows (row : Nat) : Bool := oskY ≤ row && row < oskY + oskH

/-- `show_osk`: the rows of the keyboard are saved first. -/
def showOsk (state : State) : State :=
  if state.oskActive then state
  else
    { state with
      backup := state.backup.copyRows state.frame inOskRows
      oskActive := true }.presentOsk font

/-- `hide_osk`: the rows of the keyboard come back from the backup. -/
def hideOsk (state : State) : State :=
  if !state.oskActive then state
  else
    { state with
      frame := state.frame.copyRows state.backup inOskRows
      oskActive := false }.refresh .full 0 oskY oskW oskH

/-- `toggle_osk`. -/
def toggleOsk (state : State) : State :=
  if state.oskActive then state.hideOsk else state.showOsk font

/-- `SDL_ShowKeyboardForTextInput`. -/
def showKeyboardForTextInput (state : State) : State :=
  { state with urlFocused := false }.showOsk font

/-- The address bar gets the focus and the keyboard comes up. -/
def focusUrl (state : State) : State :=
  ((({ state with urlFocused := true }).simulateClick 300 35).oskInjectKey sdlkEnd 0).showOsk font

end State

end Nookobo.Shim
