import Nookobo.Shim.Input

/-!
# The SDL shim: the browser's side of the screen

The browser writes pixels straight into the framebuffer and announces them with
`SDL_UpdateRect`. A `BrowserStep` is the two together: it carries the rectangle as
it is passed, any 32-bit values, and pixels that lie inside it.

`updateRect` keeps the arithmetic of the source: the extents are unsigned, the
sums wrap, and a rectangle that lies to the left of the panel or above it comes out
as wide or as high as the panel.
-/

namespace Nookobo.Shim

open Nookobo.Semantics Nookobo.Text

/-- A rectangle as `SDL_UpdateRect` receives it. -/
structure Rect where
  x : Int32
  y : Int32
  w : UInt32
  h : UInt32
deriving DecidableEq, Repr

namespace Rect

/-- An empty extent stands for the whole panel. -/
def isWhole (rect : Rect) : Bool := rect.w == 0 || rect.h == 0

/-- The pixels of the panel that lie in the rectangle. -/
def contains (rect : Rect) (row column : Nat) : Bool :=
  if rect.isWhole then decide (row < panelHeight ∧ column < panelWidth)
  else inRect rect.x.toInt rect.y.toInt rect.w.toNat rect.h.toNat row column

end Rect

/-- A range of rows or columns: `int32_t` start, `uint32_t` extent. -/
structure Span where
  start : Int
  extent : Nat
deriving DecidableEq, Repr

namespace Span

/-- `if (x < 0) { w += x; x = 0; }` -/
def fromZero (span : Span) : Span :=
  if span.start < 0 then ⟨0, ((span.extent + span.start) % 0x100000000).toNat⟩ else span

/-- `if (x + w > limit) w = limit - x;` -/
def cutAt (limit : Nat) (span : Span) : Span :=
  if (span.start + span.extent) % 0x100000000 > limit then ⟨span.start, (limit - span.start).toNat⟩
  else span

/-- `x + (int)w` -/
def stop (span : Span) : Int := span.start + Int.bmod span.extent 0x100000000

end Span

/-- The columns and rows that `SDL_UpdateRect` works with, when it does anything. -/
def Rect.clip (rect : Rect) : Option (Span × Span) :=
  let columns : Span := if rect.isWhole then ⟨0, panelWidth⟩ else ⟨rect.x.toInt, rect.w.toNat⟩
  let rows : Span := if rect.isWhole then ⟨0, panelHeight⟩ else ⟨rect.y.toInt, rect.h.toNat⟩
  let columns := columns.fromZero
  let rows := rows.fromZero
  if panelWidth ≤ columns.start ∨ panelHeight ≤ rows.start ∨ columns.extent = 0 ∨
      rows.extent = 0 then none
  else some (columns.cutAt panelWidth, rows.cutAt panelHeight)

/-- The rows of the keyboard that an update copies to the backup. -/
def Span.saved (rows : Span) (row : Nat) : Bool :=
  decide (max rows.start oskY ≤ row ∧ (row : Int) < min rows.stop panelHeight)

/-- The rows of the keyboard that `SDL_UpdateRect` copies to the backup. -/
def Rect.saved (rect : Rect) (row : Nat) : Bool :=
  match rect.clip with
  | none => false
  | some (_, rows) => rows.saved row

namespace State

variable (font : Font)

/-- The refresh at the end of `SDL_UpdateRect`: full for the first big frame. -/
def refreshPage (columns rows : Span) (state : State) : State :=
  let width := Int.bmod columns.extent 0x100000000
  let height := Int.bmod rows.extent 0x100000000
  if state.firstFullFrame && decide (1000 ≤ columns.extent ∧ 1000 ≤ rows.extent) then
    { state.refresh .full columns.start rows.start width height with firstFullFrame := false }
  else state.refresh .gray columns.start rows.start width height

/-- "Always ensure the URL bar has large crisp text". -/
def assertUrlBar (columns rows : Span) (state : State) : State :=
  if rows.start < 75 ∧ columns.stop > 140 then state.draw (drawUrlBarOverlay font state.url)
  else state

/-- What `SDL_UpdateRect` does while the keyboard is up and the update reaches its
rows: they are copied to the backup as they stand in the framebuffer, and the
keyboard is drawn over them again. -/
def saveUnderOsk (rows : Span) (state : State) : State :=
  { state with backup := state.backup.copyRows state.frame rows.saved }.redrawOsk font

/-- `SDL_UpdateRect`. -/
def updateRect (rect : Rect) (state : State) : State :=
  match rect.clip with
  | none => state
  | some (columns, rows) =>
      let drawn := state.assertUrlBar font columns rows
      if drawn.oskActive && decide (rows.stop > oskY) then
        let saved := drawn.saveUnderOsk font rows
        if rows.start ≥ oskY then saved
        else saved.refreshPage columns ⟨rows.start, (oskY - rows.start).toNat⟩
      else drawn.refreshPage columns rows

/-- The state `SDL_SetVideoMode` leaves: a white panel with the address bar, and
the address `init_current_url` found. -/
def setVideoMode (url : List UInt8) : State :=
  ({ url := url : State }.draw (drawUrlBarOverlay font url)).refresh .full 0 0 panelWidth
    panelHeight

end State

/-- The browser draws inside a rectangle and updates it. -/
structure BrowserStep where
  rect : Rect
  pixels : Layer UInt16
  inside : ∀ row column, rect.contains row column = false → pixels row column = none

namespace State

variable (font : Font)

/-- What the browser does: it paints, and reports the rectangle. -/
def browse (step : BrowserStep) (state : State) : State :=
  (state.draw step.pixels).updateRect font step.rect

end State

/-! ## Steps -/

/-- One thing that happens to the shim: a record of the touch screen or of the
buttons, a line from the FIFO, and the two calls of the browser. -/
inductive Label where
  | touch (ev : InputEvent)
  | key (ev : InputEvent)
  | fifo (cmd : List UInt8)
  | showKeyboard
  | browser (step : BrowserStep)

/-- The shim's reaction. The browser's own calls come from another thread; they are
taken as atomic. -/
def State.step (font : Font) (state : State) : Label → State
  | .touch ev => state.handleTouchEvent font ev
  | .key ev => state.handleKeyEvent font ev
  | .fifo cmd => state.handleFifoCommand font cmd
  | .showKeyboard => state.showKeyboardForTextInput font
  | .browser step => state.browse font step

end Nookobo.Shim
